/-
What the arguments ask for.

Options of the program stand in front of a command, options of the command
behind it.  Asking for help or for the version wins over everything that can be
read beside it, and of several such options the first one counts.
-/
import ApiSchema.CommandLine.Options
import ApiSchema.Conversion

namespace ApiSchema.CommandLine

/-- The name of a command. -/
inductive CommandName where
  /-- Writes the scaffold. -/
  | generateConfig
  /-- Lists the component schemas of a document. -/
  | listSchemas
  /-- Converts component schemas. -/
  | convert
deriving DecidableEq, Repr

/-- The name as it is written. -/
def CommandName.text : CommandName → String
  | generateConfig => "generate-config"
  | listSchemas => "list-schemas"
  | convert => "convert"

/-- All commands. -/
def CommandName.all : List CommandName := [generateConfig, listSchemas, convert]

/-- The command of a name. -/
def CommandName.ofText? (text : String) : Option CommandName := all.find? (·.text = text)

/-- A command with its options. -/
inductive Command where
  /-- Writes the scaffold to a file. -/
  | generateConfig (output : String)
  /-- Lists the component schemas of a document. -/
  | listSchemas (document : String)
  /-- Converts component schemas. -/
  | convert (request : ConversionRequest)
deriving DecidableEq, Repr

/-- What is asked for. -/
inductive Request where
  /-- The help text of the program, or of a command. -/
  | help (command : Option CommandName)
  /-- The version of the program. -/
  | version
  /-- A command, possibly with the log. -/
  | run (verbose : Bool) (command : Command)
deriving DecidableEq, Repr

/-- A usage error and the command in whose arguments it was found. -/
structure Misuse where
  /-- The command, unless the error stands in front of it. -/
  command : Option CommandName
  /-- What is wrong. -/
  cause : UsageError
deriving DecidableEq, Repr

/-! ### Options -/

/-- The options that ask for help. -/
def helpFlags : List String := ["-h", "--help"]

/-- The options that ask for the log. -/
def verboseFlags : List String := ["-v", "--verbose"]

/-- The option that asks for the version. -/
def versionFlag : String := "--version"

/-- The options of the program.  The first other argument ends them. -/
def programTable : OptionTable :=
  { flags := versionFlag :: verboseFlags ++ helpFlags, interspersed := false }

/-- The options of a command that have a path as their value. -/
def pathOptions : CommandName → List String
  | .generateConfig => ["--output"]
  | .listSchemas => ["--document"]
  | .convert => ["--document", "--output-dir", "--config"]

/-- The options of a command. -/
def commandTable (name : CommandName) : OptionTable :=
  { flags := helpFlags
    valued := pathOptions name ++ if name = .convert then ["--schema"] else [] }

/-- The request for help or for the version that one option makes. -/
def informs? (command : Option CommandName) : Occurrence → Option Request
  | .flag option =>
    if helpFlags.contains option then some (.help command)
    else if option = versionFlag then some .version
    else none
  | .setting _ _ => none

/-! ### Commands -/

/-- Options may not hold paths with a zero character. -/
def checkPaths (name : CommandName) (options : List Occurrence) : Except (Failure Misuse) Unit :=
  let paths := (pathOptions name).filterMap fun option => valueOf? option options
  if paths.any fun path => path.toList.contains '\x00' then .error (.fault .zeroInPath) else .ok ()

/-- The value of an option that has to be given. -/
def required (name : CommandName) (option : String) (options : List Occurrence) :
    Except (Failure Misuse) String :=
  match valueOf? option options with
  | some value => .ok value
  | none => .error (.error ⟨name, .missingOption option⟩)

/-- A command from its options. -/
def buildCommand (options : List Occurrence) : CommandName → Except (Failure Misuse) Command
  | .generateConfig =>
    .ok (.generateConfig ((valueOf? "--output" options).getD defaultSettingsFile))
  | .listSchemas => do
    return .listSchemas (← required .listSchemas "--document" options)
  | .convert => do
    return .convert
      { document := ← required .convert "--document" options
        schemas := valuesOf "--schema" options
        outputDirectory := valueOf? "--output-dir" options
        settings := valueOf? "--config" options }

/-- Reads options by a table, as part of the arguments of a command. -/
def readOptions (command : Option CommandName) (table : OptionTable) (args : List String) :
    Except (Failure Misuse) (List Occurrence × List String) :=
  (table.read args).mapError fun cause => .error ⟨command, cause⟩

/-- What the arguments behind the name of a command ask for. -/
def readCommand (verbose : Bool) (name : CommandName) (args : List String) :
    Except (Failure Misuse) Request := do
  let (options, others) ← readOptions name (commandTable name) args
  match options.findSome? (informs? (some name)) with
  | some request => return request
  | none =>
    checkPaths name options
    let command ← buildCommand options name
    unless others.isEmpty do throw (.error ⟨name, .extraArguments others⟩)
    return .run verbose command

/-! ### Arguments -/

/-- What the options of the program ask for by themselves, and what follows them. -/
def readProgram (args : List String) :
    Except (Failure Misuse) (Option Request × List Occurrence × List String) := do
  let (options, others) ← readOptions none programTable args
  return (options.findSome? (informs? none), options, others)

/-- An unknown command.  If it looks like an option, it is read as one of the program first. -/
def readUnknown (name : String) (args : List String) : Except (Failure Misuse) Request := do
  match (← readProgram (name :: args)).1 with
  | some request => return request
  | none => throw (.error ⟨none, .noSuchCommand name (meant name (CommandName.all.map (·.text)))⟩)

/-- What the arguments of the program ask for. -/
def readArguments (args : List String) : Except (Failure Misuse) Request := do
  if args.isEmpty then throw (.error ⟨none, .noArguments⟩)
  let (request?, options, others) ← readProgram args
  match request?, others with
  | some request, _ => return request
  | none, [] => throw (.error ⟨none, .missingCommand⟩)
  | none, name :: rest =>
    match CommandName.ofText? name with
    | some command =>
      let verbose := options.any fun o => verboseFlags.any fun flag => o = .flag flag
      readCommand verbose command rest
    | none => readUnknown name rest

end ApiSchema.CommandLine
