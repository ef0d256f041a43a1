/-
Documents and their component schemas.

The schemas of a document stand under `components`, `schemas`.  They are listed
by the names of their keys, which need not be texts, and selected by a reference
to the place of a name.
-/
import ApiSchema.Reference.Resolve

namespace ApiSchema

/-- A parsed document and the place it was read from. -/
structure Document where
  /-- The absolute path of the file. -/
  path : String
  /-- The entries of the root. -/
  root : Entries

namespace Document

/-- The root as a value. -/
def value (d : Document) : Value := .mapping d.root

/-- The mapping of component schemas, if the document has one. -/
def componentSchemas? (root : Entries) : Option Entries := do
  let components ← (← Entries.get? root "components").entries?
  (← Entries.get? components "schemas").entries?

/-- The keys of the component schemas, in document order. -/
def schemaKeys (root : Entries) : List Scalar :=
  match componentSchemas? root with
  | some schemas => Entries.keys schemas
  | none => []

/-- The names of the component schemas, in document order. -/
def schemaNames (root : Entries) : List String := (schemaKeys root).map Scalar.name

/-- The text of a reference to a component schema. -/
def schemaReference (name : String) : String := "#/components/schemas/" ++ Pointer.escape name

end Document

end ApiSchema
