/-
Following references.

A reference names a place of the document by a local pointer.  Only places
strictly below one of the supported areas may be named, which is decided by the
pointers alone, before the document is looked at.  Then the pointer is followed
from the root, key by key.
-/
import ApiSchema.Pointer
import ApiSchema.Schema.Shape

namespace ApiSchema

/-- Why a reference cannot be followed or replaced. -/
inductive ReferenceError where
  /-- The node holds no reference text. -/
  | notAReference
  /-- A text is not a local pointer. -/
  | notLocal (text : String)
  /-- The reference does not point below a supported area. -/
  | outsideAreas (ref : String) (areas : List String)
  /-- The document has nothing at this place, nor below it. -/
  | missing (ref : String) (place : List String)
  /-- The reference is reached again while its own target is being expanded. -/
  | circular (chain : List String)
deriving DecidableEq, Repr

/-- The kinds of reference errors. -/
inductive ReferenceErrorKind where
  /-- The path of the reference leads nowhere. -/
  | unresolvedPath
  /-- The reference does not name a place that references may name. -/
  | unsupportedTarget
  /-- There is no reference. -/
  | notAReference
  /-- The reference leads back to itself. -/
  | circular
deriving DecidableEq, Repr

/-- The kind of a reference error. -/
def ReferenceError.kind : ReferenceError → ReferenceErrorKind
  | notAReference => .notAReference
  | notLocal _ | outsideAreas _ _ => .unsupportedTarget
  | missing _ _ => .unresolvedPath
  | circular _ => .circular

/-- What is said about a text that should be a local pointer. -/
def notLocalMessage (text : String) : String :=
  s!"Only local references starting with '#/' are supported: {text}"

namespace ReferenceError

/-- What the error says. -/
def message : ReferenceError → String
  | notAReference => "Reference node must contain a string $ref."
  | notLocal text => notLocalMessage text
  | outsideAreas ref areas =>
    s!"Unsupported $ref '{ref}': references must point below " ++ ", ".intercalate areas ++ "."
  | missing ref place =>
    s!"Could not resolve $ref '{ref}': '" ++ Pointer.join place ++ "' does not exist."
  | circular chain => "Circular $ref cannot be inlined: " ++ " -> ".intercalate chain

end ReferenceError

namespace Value

/-- The value under a name, for a mapping that has the name. -/
def child? (v : Value) (name : String) : Option Value :=
  match v with
  | .mapping es => Entries.get? es name
  | _ => none

/-- The value reached by following names from the root. -/
def at? (v : Value) (place : List String) : Option Value := place.foldlM child? v

end Value

/-- Where a reference may point when nothing else is said. -/
def defaultAreas : List String := ["#/components/schemas"]

/-- The pointer that a text writes. -/
def localPointer (text : String) : Except ReferenceError Pointer :=
  match Pointer.parse? text with
  | some p => .ok p
  | none => .error (.notLocal text)

/-- The pointer of a reference, which has to lead below a supported area. -/
def supportedPointer (areas : List String) (ref : String) : Except ReferenceError Pointer := do
  let pointer ← localPointer ref
  let supported ← areas.mapM localPointer
  if supported.any pointer.isBelow then return pointer
  else throw (.outsideAreas ref areas)

/-- Follows names from a value.  `passed` are the names that led to it; on failure the answer is the
path up to the first name that leads nowhere. -/
def follow (v : Value) (passed : List String) : List String → Except (List String) Value
  | [] => .ok v
  | name :: rest => match v.child? name with
    | some w => follow w (passed ++ [name]) rest
    | none => .error (passed ++ [name])

/-- The value that a reference text names. -/
def resolveText (document : Value) (areas : List String) (ref : String) :
    Except ReferenceError Value := do
  let pointer ← supportedPointer areas ref
  match follow document [] pointer.segments with
  | .ok v => return v
  | .error place => throw (.missing ref place)

/-- The value that a reference node names. -/
def resolve (document : Value) (areas : List String) (node : Value) :
    Except ReferenceError Value :=
  match node.entries?.bind Entries.ref? with
  | some ref => resolveText document areas ref
  | none => .error .notAReference

theorem follow_eq (v : Value) (passed place : List String) :
    (follow v passed place).toOption = v.at? place := by
  induction place generalizing v passed with
  | nil => rfl
  | cons name rest ih =>
    simp only [follow, Value.at?, List.foldlM_cons]
    cases h : v.child? name with
    | none => rfl
    | some w => exact ih w _

end ApiSchema
