/-
From OpenAPI schema objects to JSON Schema draft-04.

The two dialects differ in how they admit null: an OpenAPI schema says
`nullable: true`, a draft-04 schema lists `null` among its types.  Every node is
checked and then mapped, subschemas before the node that holds them.  A node that
refers to another place only loses its `nullable`, because the dialect ignores
what stands beside a reference.  The root is given the identifier of its dialect.

A node is checked before it is mapped itself and never after that, so the type
arrays that the mapping puts into subschemas are not taken for arrays of the
document.
-/
import ApiSchema.Schema.Walk
import ApiSchema.Value.Literal

namespace ApiSchema

/-- What a schema is called in messages: by its name, unless it has none or an empty one. -/
def schemaLabel (name : Option String) : String :=
  match name with
  | some n => if n.isEmpty then "schema" else s!"schema '{n}'"
  | none => "schema"

/-- Why a schema has no draft-04 form. -/
inductive Rejection where
  /-- The root is not a mapping. -/
  | notASchema
  /-- A node lists several types. -/
  | typeArray (types : List Value)
  /-- A node gives each item a schema of its own. -/
  | itemsArray
deriving DecidableEq

/-- What a rejection says about the schema of that label. -/
def Rejection.message (label : String) : Rejection → String
  | notASchema => s!"Invalid {label}: root must be a schema object."
  | typeArray types =>
    s!"Invalid {label}: type must be a single string, got an array " ++
      Value.itemsLiteral types ++ ". Use nullable instead of 'null'."
  | itemsArray =>
    s!"Invalid {label}: items must be a single schema object, " ++
      "tuple-form items arrays are not supported."

/-- The message can be written: no integer in it has too many digits. -/
def Rejection.isWritable : Rejection → Bool
  | typeArray types => Value.itemsWritable types
  | notASchema | itemsArray => true

/-- The identifier of draft-04. -/
def draft4Dialect : String := "http://json-schema.org/draft-04/schema#"

namespace Entries

/-- The node has no construct that the mapping refuses. -/
def checkNode (es : Entries) : Except Rejection Unit :=
  match get? es Keyword.type, get? es Slot.items.keyword with
  | some (.array _ types), _ => .error (.typeArray types)
  | _, some (.array _ _) => .error .itemsArray
  | _, _ => .ok ()

/-- The node with a type that admits null.  A node without a type text admits every value, null
included, once it has no type at all. -/
def admitNull (es : Entries) : Entries :=
  match (get? es Keyword.type).bind Value.text? with
  | some t => set es Keyword.type (.array .list [.str t, .str "null"])
  | none => erase es Keyword.type

/-- The node with `nullable` folded into `type`. -/
def foldNullable (es : Entries) : Entries :=
  match get? es Keyword.nullable with
  | none => es
  | some nullable =>
    let rest := erase es Keyword.nullable
    if nullable.isTruthy && (ref? es).isNone then admitNull rest else rest

/-- The node checked and mapped, its subschemas being mapped already. -/
def toDraft4Node (es : Entries) : Except Rejection Value := do
  checkNode es
  return .mapping (foldNullable es)

/-- The entries of a root schema, headed by the identifier of its dialect. -/
def withDialect (es : Entries) : Entries :=
  (.str Keyword.dialect, .str draft4Dialect) :: erase es Keyword.dialect

end Entries

/-- The draft-04 form of an OpenAPI schema object. -/
def Value.toDraft4 : Value → Except Rejection Entries
  | .mapping es => do
    let node ← walkSubschemas Entries.toDraft4Node es
    Entries.checkNode node
    return Entries.withDialect (Entries.foldNullable node)
  | _ => .error .notASchema

end ApiSchema
