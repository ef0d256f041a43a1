/-
Settings of a conversion.

A settings file is a mapping with two sections, `references` and `output`.  A
section may be absent or null; a setting may be absent, but not null.  Settings
that are not known are ignored.  The first fault decides, in the order in which
the settings stand here.
-/
import ApiSchema.Reference.Resolve
import ApiSchema.Text.Blank

namespace ApiSchema

/-- Where references may point, and whether they are replaced by their targets. -/
structure ReferenceSettings where
  /-- References point below one of these places. -/
  areas : List String := defaultAreas
  /-- References are replaced before the schema is mapped. -/
  inline : Bool := false
deriving DecidableEq, Repr

/-- How converted schemas are printed. -/
structure OutputSettings where
  /-- Spaces per level. -/
  indent : Nat := 2
  /-- Keys are printed in ascending order. -/
  sortKeys : Bool := false
deriving DecidableEq, Repr

/-- All settings of a conversion. -/
structure Settings where
  /-- The section about references. -/
  references : ReferenceSettings := {}
  /-- The section about output. -/
  output : OutputSettings := {}
deriving DecidableEq, Repr

/-- What is wrong with the settings. -/
inductive SettingsError where
  /-- The root is no mapping. -/
  | rootNotMapping
  /-- A section is neither null nor a mapping. -/
  | sectionNotMapping (name : String)
  /-- The areas are neither a text nor an array. -/
  | areasNotList
  /-- An area is no text. -/
  | areaNotText
  /-- An area does not start as a local pointer. -/
  | areaNotLocal (entry : String)
  /-- No area is given. -/
  | noAreas
  /-- A setting is no truth value. -/
  | notBoolean (name : String)
  /-- A setting is no integer. -/
  | notInteger (name : String)
  /-- A setting is zero or less. -/
  | notPositive (name : String)
deriving DecidableEq, Repr

/-- What the error says. -/
def SettingsError.message : SettingsError → String
  | rootNotMapping => "Configuration root must be a mapping."
  | sectionNotMapping name => s!"Configuration section '{name}' must be a mapping."
  | areasNotList => "references.supported_prefixes must be a string or list of strings."
  | areaNotText => "references.supported_prefixes entries must be strings."
  | areaNotLocal entry =>
    s!"references.supported_prefixes entry '{entry}' must start with '{Pointer.localStart}'."
  | noAreas => "references.supported_prefixes must contain at least one prefix."
  | notBoolean name => s!"{name} must be a boolean."
  | notInteger name => s!"{name} must be an integer."
  | notPositive name => s!"{name} must be greater than zero."

namespace Settings

/-! ### Areas -/

/-- An area without the white space around it and without slashes at its end. -/
def trimArea (entry : String) : String :=
  String.ofList (Text.dropTrailing (· = '/') (Text.trim entry.toList))

/-- The trimmed area, which has to start as a local pointer. -/
def readArea (entry : Value) : Except SettingsError String :=
  match entry with
  | .scalar (.str s) =>
    let area := trimArea s
    if Pointer.localStart.toList.isPrefixOf area.toList then .ok area
    else .error (.areaNotLocal s)
  | _ => .error .areaNotText

/-- The values that may be areas.  A single text stands for a list of one; bytes are an array of
numbers, none of which is an area. -/
def areaEntries : Value → Except SettingsError (List Value)
  | .scalar (.str s) => .ok [.str s]
  | .scalar (.bytes bs) => .ok (bs.map fun b => .scalar (.int b.toNat))
  | .array _ items => .ok items
  | _ => .error .areasNotList

/-- The supported areas, of which there is at least one. -/
def readAreas (v : Value) : Except SettingsError (List String) := do
  let areas ← (← areaEntries v).mapM readArea
  if areas.isEmpty then throw .noAreas else return areas

/-! ### Single settings -/

/-- A truth value. -/
def readBool (name : String) : Value → Except SettingsError Bool
  | .scalar (.bool b) => .ok b
  | _ => .error (.notBoolean name)

/-- A positive integer.  A truth value is not one. -/
def readPositive (name : String) : Value → Except SettingsError Nat
  | .scalar (.int n) => if 0 < n then .ok n.toNat else .error (.notPositive name)
  | _ => .error (.notInteger name)

/-- The entries of a section, none if it is absent or null. -/
def readSection (root : Entries) (name : String) : Except SettingsError Entries :=
  match Entries.get? root name with
  | none | some (.scalar .null) => .ok []
  | some (.mapping es) => .ok es
  | some _ => .error (.sectionNotMapping name)

/-- A setting read by `read`, or its default if the section does not have it. -/
def readSetting {α : Type} (entries : Entries) (key : String) (default : α)
    (read : Value → Except SettingsError α) : Except SettingsError α :=
  match Entries.get? entries key with
  | some v => read v
  | none => .ok default

/-! ### Sections -/

/-- The section about references. -/
def readReferences (root : Entries) : Except SettingsError ReferenceSettings := do
  let entries ← readSection root "references"
  let areas ← readSetting entries "supported_prefixes" defaultAreas readAreas
  let inline ← readSetting entries "inline" false (readBool "references.inline")
  return { areas, inline }

/-- The section about output. -/
def readOutput (root : Entries) : Except SettingsError OutputSettings := do
  let entries ← readSection root "output"
  let indent ← readSetting entries "indent" 2 (readPositive "output.indent")
  let sortKeys ← readSetting entries "sort_keys" false (readBool "output.sort_keys")
  return { indent, sortKeys }

/-- The settings that a parsed file gives.  A file without content gives the defaults. -/
def ofValue (v : Value) : Except SettingsError Settings :=
  match v with
  | .scalar .null => .ok {}
  | .mapping root => do
    let references ← readReferences root
    let output ← readOutput root
    return { references, output }
  | _ => .error .rootNotMapping

end Settings

end ApiSchema
