/-
Converted schemas as one JSON text.

A single schema is printed by itself, several under their names.  A name that
occurs again overwrites its schema and keeps its place.
-/
import ApiSchema.Json.Writer
import ApiSchema.Settings

namespace ApiSchema

/-- A component schema in its draft-04 form. -/
structure ConvertedSchema where
  /-- The name of the component. -/
  name : String
  /-- The draft-04 schema. -/
  schema : Value
deriving DecidableEq

/-- The value printed for a list of schemas. -/
def schemasValue : List ConvertedSchema → Value
  | [one] => one.schema
  | several => .mapping (Entries.ofPairs (several.map fun s => (.str s.name, s.schema)))

/-- The style that the settings ask for. -/
def OutputSettings.style (settings : OutputSettings) : Json.Style :=
  { indent := settings.indent, sortKeys := settings.sortKeys }

/-- The text of a list of schemas. -/
def renderSchemas (settings : OutputSettings) (schemas : List ConvertedSchema) :
    Except Fault String :=
  Json.render settings.style (schemasValue schemas)

end ApiSchema
