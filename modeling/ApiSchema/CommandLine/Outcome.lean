/-
Running a request.

Success prints to standard output and exits with 0, an error of a command prints
its message to standard error and exits with 1, and arguments that cannot be
read exit with 2 without anything having been done.  The log, if it is wanted,
goes to standard error, in front of a message.  Control sequences are printed
only in the log.  A fault is no outcome.
-/
import ApiSchema.CommandLine.Help
import ApiSchema.Text.ControlSequence

namespace ApiSchema.CommandLine

/-- What the program leaves behind when it ends by itself. -/
structure Outcome where
  /-- The exit code. -/
  exit : Nat
  /-- What went to standard output. -/
  stdout : String
  /-- What went to standard error. -/
  stderr : String
deriving DecidableEq, Repr

/-- Why a command fails. -/
inductive CommandError where
  /-- The scaffold is not written. -/
  | scaffold (cause : ScaffoldError)
  /-- The document is not loaded. -/
  | document (cause : DocumentError)
  /-- The conversion fails. -/
  | conversion (cause : ConversionError)
deriving DecidableEq

/-- What the error says. -/
def CommandError.message : CommandError → String
  | scaffold cause => cause.message
  | document cause => cause.message
  | conversion cause => cause.message

/-- The texts, each as a line. -/
def unlines (texts : List String) : String := String.join (texts.map (· ++ "\n"))

/-- What a conversion prints: the files it has written, or the schemas if there are none. -/
def conversionText (c : Conversion) : Except Fault String :=
  if c.outputPaths.isEmpty then c.text.map (· ++ "\n") else .ok (unlines c.outputPaths)

variable {m : Type → Type} [Monad m] [FileSystem m]

/-- What a command prints. -/
def Command.perform [Loader] : Command → TracedT (Failure CommandError) m String
  | generateConfig output => do
    let place ← .ofExceptT ((Settings.writeScaffold output).adapt (Failure.map .scaffold))
    return unlines [place]
  | listSchemas path => do
    let document ← (Document.load path).mapError (.map .document)
    return unlines (Document.schemaNames document.root)
  | convert request => do
    let c ← (Conversion.run request).mapError (.map .conversion)
    .ofTraced (.ofExcept ((conversionText c).mapError .fault))

open Text (withoutControls)

/-- The outcome of a command with a traced result. -/
def Outcome.ofTraced (verbose : Bool) (t : Traced (Failure CommandError) String) :
    Except Fault Outcome :=
  let log := if verbose then unlines (t.lines.map LogLine.text) else ""
  match t.result with
  | .ok text => .ok { exit := 0, stdout := withoutControls text, stderr := log }
  | .error (.error cause) =>
    .ok { exit := 1, stdout := "", stderr := log ++ unlines [withoutControls cause.message] }
  | .error (.fault fault) => .error fault

/-- Does what the arguments ask for. -/
def run [Loader] (args : List String) : m (Except Fault Outcome) := do
  match readArguments args with
  | .ok (.help command) => return .ok { exit := 0, stdout := helpText command, stderr := "" }
  | .ok .version =>
    return .ok { exit := 0, stdout := s!"{programName}, version {programVersion}\n", stderr := "" }
  | .ok (.run verbose command) => return Outcome.ofTraced verbose (← command.perform.run)
  | .error (.error misuse) =>
    return .ok { exit := 2, stdout := "", stderr := withoutControls misuse.text }
  | .error (.fault fault) => return .error fault

end ApiSchema.CommandLine
