/-
The settings file that a user starts from.

It states every setting with its default and says what the setting does.
-/

namespace ApiSchema

/-- The name of a settings file when none is given. -/
def defaultSettingsFile : String := "oas-schema-mapper.yaml"

/-- The lines of the scaffold. -/
def scaffoldLines : List String :=
  ["# Conversion configuration for oas-schema-mapper.",
    "# Every setting is optional; remove a line to keep its default.",
    "",
    "references:",
    "  # $ref pointers must point below one of these local prefixes.",
    "  supported_prefixes:",
    "    - \"#/components/schemas\"",
    "  # Replace $ref nodes with their targets before mapping to JSON Schema.",
    "  inline: false",
    "",
    "output:",
    "  # Indentation of rendered JSON Schema documents.",
    "  indent: 2",
    "  sort_keys: false"]

/-- The text of the scaffold. -/
def scaffold : String := String.join (scaffoldLines.map (· ++ "\n"))

end ApiSchema
