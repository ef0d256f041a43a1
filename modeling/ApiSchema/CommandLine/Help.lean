/-
Help texts.

Every help text starts with a usage line, and so does what is printed when the
arguments cannot be read.  The texts are those of the commands and their options.
How the option library lays them out, in columns and in lines of a certain width,
is left out.
-/
import ApiSchema.CommandLine.Request

namespace ApiSchema.CommandLine

/-- The name of the program. -/
def programName : String := "oas-schema-mapper"

/-- The version of the program. -/
def programVersion : String := "0.1.0"

/-- What the program is called with a command. -/
def calledAs : Option CommandName → String
  | none => programName
  | some name => programName ++ " " ++ name.text

/-- How the program, or a command, is called. -/
def usageLine (command : Option CommandName) : String :=
  "Usage: " ++ calledAs command ++ " [OPTIONS]" ++
    (if command.isNone then " COMMAND [ARGS]..." else "")

/-- What the program, or a command, does. -/
def purpose : Option CommandName → String
  | none => "Convert OpenAPI schema objects into JSON Schema draft-04."
  | some .generateConfig =>
    "Generate a YAML configuration with the default settings and guidance comments."
  | some .listSchemas => "List the component schema names of an OpenAPI document."
  | some .convert => "Convert component schemas of an OpenAPI document to JSON Schema."

/-- The option for a document, which has to be given. -/
def documentHelp : String × String :=
  ("--document PATH", "Path to the YAML/JSON OpenAPI document  [required]")

/-- The options of the program, or of a command, with what they do. -/
def optionHelp : Option CommandName → List (String × String)
  | none =>
    [("--version", "Show the version and exit."), ("-v, --verbose", "Log debug details to stderr.")]
  | some .generateConfig =>
    [("--output PATH", "Path to the YAML configuration template to write  [default: " ++
      defaultSettingsFile ++ "]")]
  | some .listSchemas => [documentHelp]
  | some .convert =>
    [documentHelp,
      ("--schema TEXT", "Component schema name to convert; repeat for several. Defaults to all."),
      ("--output-dir PATH", "Optional directory for writing one <name>.json file per schema"),
      ("--config PATH", "Path to a YAML configuration file")]

/-- The lines of a list of terms with what they mean. -/
def termLines (terms : List (String × String)) : List String :=
  terms.map fun (term, meaning) => "  " ++ term ++ "  " ++ meaning

/-- The list of commands. -/
def commandLines : List String :=
  "" :: "Commands:" :: termLines ([CommandName.convert, .generateConfig, .listSchemas].map
    fun name => (name.text, purpose (some name)))

/-- The help text of the program, or of a command. -/
def helpText (command : Option CommandName) : String :=
  let lines := [usageLine command, "", "  " ++ purpose command, "", "Options:"] ++
    termLines (optionHelp command ++ [("-h, --help", "Show this message and exit.")]) ++
    (if command.isNone then commandLines else [])
  String.join (lines.map (· ++ "\n"))

/-- What is printed when the arguments cannot be read: the usage line and the error, or the whole
help text if the error says nothing. -/
def Misuse.text (misuse : Misuse) : String :=
  match misuse.cause.message? with
  | some message =>
    let command := misuse.command
    let hint := s!"Try '{calledAs command} -h' for help."
    String.join ([usageLine command, hint, "", "Error: " ++ message].map (· ++ "\n"))
  | none => helpText misuse.command

end ApiSchema.CommandLine
