/-
Tokens of a YAML text.

Indentation has become tokens here: a block collection starts with a token of
its own and ends with `blockEnd`, so the grammar over tokens knows no columns.
-/

namespace ApiSchema.Yaml

/-- A tag as written: an abbreviation declared in the document, if any, and the rest. -/
structure TagText where
  /-- The abbreviation, such as `!!`; none for a tag written in full. -/
  handle : Option String
  /-- What follows the abbreviation. -/
  suffix : String
deriving DecidableEq, Repr

/-- A directive line. -/
inductive Directive where
  /-- The version of the language. -/
  | version (major minor : Nat)
  /-- An abbreviation for tags. -/
  | tag (handle expansion : String)
  /-- A directive without meaning here. -/
  | reserved
deriving DecidableEq, Repr

/-- A token. -/
inductive Token where
  /-- A directive line. -/
  | directive (d : Directive)
  /-- Three hyphens. -/
  | documentStart
  /-- Three dots. -/
  | documentEnd
  /-- The first entry of a block sequence follows. -/
  | blockSequenceStart
  /-- The first key of a block mapping follows. -/
  | blockMappingStart
  /-- The innermost block collection ends. -/
  | blockEnd
  /-- An opening bracket. -/
  | flowSequenceStart
  /-- A closing bracket. -/
  | flowSequenceEnd
  /-- An opening brace. -/
  | flowMappingStart
  /-- A closing brace. -/
  | flowMappingEnd
  /-- The hyphen before an entry. -/
  | blockEntry
  /-- A comma. -/
  | flowEntry
  /-- A key follows. -/
  | key
  /-- A value follows. -/
  | value
  /-- A reference to an anchor. -/
  | alias (name : String)
  /-- A name for the next node. -/
  | anchor (name : String)
  /-- A tag for the next node. -/
  | tag (t : TagText)
  /-- A scalar; `plain` if it is written without quotes and without a block mark. -/
  | scalar (text : String) (plain : Bool)
  /-- The text ends. -/
  | streamEnd
deriving DecidableEq, Repr

end ApiSchema.Yaml
