/-
The program: the command line on real files.

The operations on files are those of the operating system, and files are read by
the loader for YAML.  Only the numbers of the system's errors are looked at; what
a refusal says is the library's own text.
-/
import ApiSchema.CommandLine.Outcome
import ApiSchema.Yaml.Loader

namespace ApiSchema

/-- The cause of that number. -/
def RefusalCause.ofNumber (number : Nat) (text : String) : RefusalCause :=
  match [missing, present, notDirectory, isDirectory, nameTooLong].find? (·.number = number) with
  | some cause => cause
  | none => .other number text

/-- The number of an error.  Some operations give it with a minus sign. -/
def errorNumber (code : UInt32) : Nat :=
  code.toInt32.toInt.natAbs

/-- The cause of an error of the operating system. -/
def RefusalCause.ofSystemError : IO.Error → RefusalCause
  | .noFileOrDirectory _ code text | .noSuchThing _ code text | .alreadyExists _ code text
  | .inappropriateType _ code text | .invalidArgument _ code text
  | .permissionDenied _ code text | .resourceExhausted _ code text | .interrupted _ code text
  | .resourceBusy code text | .unsupportedOperation code text | .hardwareFault code text
  | .illegalOperation code text | .unsatisfiedConstraints code text | .protocolError code text
  | .timeExpired code text | .resourceVanished code text | .otherError code text =>
    .ofNumber (errorNumber code) text
  | error => .other 0 (toString error)

/-- An action of the operating system, whose errors are refusals. -/
def refusable {α : Type} (act : IO α) : IO (Except RefusalCause α) := do
  match ← act.toBaseIO with
  | .ok a => return .ok a
  | .error e => return .error (.ofSystemError e)

/-- What is known of a path as the operating system sees it. -/
def lookUp (p : Path) : IO (Except RefusalCause IO.FS.Metadata) := do
  let place := (← IO.currentDir) / p.text
  refusable place.metadata

instance : FileSystem IO where
  present p := do
    match ← lookUp p with
    | .ok _ => return .ok true
    | .error .missing | .error .notDirectory => return .ok false
    | .error cause => return .error cause
  isDirectory p := do
    match ← lookUp p with
    | .ok data => return match data.type with
      | .dir => true
      | _ => false
    | .error _ => return false
  read p := refusable (IO.FS.readBinFile p.text)
  createDirectory p := refusable (IO.FS.createDir p.text)
  write p bytes := refusable (IO.FS.writeBinFile p.text bytes)
  resolve p := do return (← IO.FS.realPath p.text).toString

/-- What a fault says when it ends the program. -/
def Fault.message : Fault → String
  | unorderedKeys => "keys of different kinds cannot be sorted"
  | noJsonForm => "a value has no JSON form"
  | notUtf8 => "a file is not UTF-8"
  | zeroInPath => "a path holds a zero character"
  | impossibleScalar => "a scalar names no number, date or character"
  | emptyNumber => "a scalar is tagged as a number and is empty"
  | unknownTruthValue => "a scalar is tagged as a truth value and is none"
  | unknownTimestamp => "a scalar is tagged as a timestamp and is none"
  | timestampInMapping => "a mapping is tagged as a timestamp"
  | hugeCharacterNumber => "a character number is too large"
  | hugePlace => "a number in base 60 has too many places"
  | tooManyDigits => "an integer has too many digits"
  | endlessValue => "a value contains itself"
  | hugeIndent => "an indentation is too wide"

end ApiSchema

open ApiSchema in
/-- Runs the arguments and prints their outcome.  A fault ends the program with 1. -/
def main (args : List String) : IO UInt32 := do
  match ← (CommandLine.run args : IO (Except Fault CommandLine.Outcome)) with
  | .ok outcome =>
    (← IO.getStdout).putStr outcome.stdout
    (← IO.getStderr).putStr outcome.stderr
    return outcome.exit.toUInt32
  | .error fault =>
    IO.eprintln fault.message
    return 1
