/-
Options among arguments.

A long option starts with two hyphens and may carry its value behind an equals
sign; otherwise the value is the next argument, whatever that is.  Options of one
letter take no values and may be joined behind one hyphen.  Two hyphens alone end
the options.  The first argument that cannot be read decides.

Reading options is the work of a library.  Its behaviour is described here as far as the
options of the program can show it.
-/
import ApiSchema.Text.Quoted
import ApiSchema.Text.Similarity

namespace ApiSchema.CommandLine

/-- What is wrong with the arguments. -/
inductive UsageError where
  /-- There is no argument at all. -/
  | noArguments
  /-- The option is unknown.  The others are like it. -/
  | noSuchOption (option : String) (others : List String)
  /-- The option needs a value. -/
  | needsArgument (option : String)
  /-- The option takes no value. -/
  | takesNoValue (option : String)
  /-- An option has to be given. -/
  | missingOption (option : String)
  /-- No command is given. -/
  | missingCommand
  /-- The command is unknown.  The others are like it. -/
  | noSuchCommand (name : String) (others : List String)
  /-- There are more arguments than the command takes. -/
  | extraArguments (arguments : List String)
deriving DecidableEq, Repr

/-- What is said about words that may have been meant, behind a message. -/
def meantText (words : List String) : String :=
  match words.map Text.quoted with
  | [] => ""
  | [one] => s!" Did you mean {one}?"
  | several => " (Did you mean one of: " ++ ", ".intercalate several ++ "?)"

/-- What the error says; nothing if there is nothing to say beside the help text. -/
def UsageError.message? : UsageError → Option String
  | noArguments => none
  | noSuchOption option others =>
    some (s!"No such option {Text.quoted option}." ++ meantText others)
  | needsArgument option => some s!"Option {Text.quoted option} requires an argument."
  | takesNoValue option => some s!"Option {Text.quoted option} does not take a value."
  | missingOption option => some s!"Missing option '{option}'."
  | missingCommand => some "Missing command."
  | noSuchCommand name others =>
    some (s!"No such command {Text.quoted name}." ++ meantText others)
  | extraArguments [one] => some s!"Got unexpected extra argument ({one})"
  | extraArguments several =>
    some ("Got unexpected extra arguments (" ++ " ".intercalate several ++ ")")

/-- The options that may stand at a place. -/
structure OptionTable where
  /-- The options without a value. -/
  flags : List String
  /-- The options with a value. -/
  valued : List String := []
  /-- Options may stand behind other arguments. -/
  interspersed : Bool := true

/-- An option as it is used. -/
inductive Occurrence where
  /-- An option without a value. -/
  | flag (option : String)
  /-- An option with its value. -/
  | setting (option value : String)
deriving DecidableEq, Repr

/-- What an argument that is an option stands for. -/
inductive OptionArgument where
  /-- Options that are complete. -/
  | complete (options : List Occurrence)
  /-- An option whose value is the next argument. -/
  | pending (option : String)

/-- The argument is an option: it starts with a hyphen and goes on. -/
def isOption (arg : String) : Bool :=
  match arg.toList with
  | '-' :: _ :: _ => true
  | _ => false

/-- The known words that may have been meant by another one, in ascending order. -/
def meant (word : String) (known : List String) : List String :=
  (Text.closest word known).mergeSort fun a b => !decide (b < a)

/-- A text cut at the first equals sign, if it has one. -/
def cutAtEquals (cs : List Char) : String × Option String :=
  (String.ofList (cs.takeWhile (· ≠ '=')),
    match cs.dropWhile (· ≠ '=') with
    | [] => none
    | _ :: value => some (String.ofList value))

namespace OptionTable

/-- The options of the table behind two hyphens. -/
def longOptions (t : OptionTable) : List String :=
  (t.flags ++ t.valued).filter fun option => option.startsWith "--"

/-- Letters behind one hyphen, each of them an option. -/
def readLetters (t : OptionTable) (letters : List Char) : Except UsageError OptionArgument := do
  let options ← letters.mapM fun letter =>
    let option := String.ofList ['-', letter]
    if t.flags.contains option then .ok (Occurrence.flag option)
    else .error (.noSuchOption option [])
  return .complete options

/-- An option behind two hyphens. -/
def readLong (t : OptionTable) (cs : List Char) : Except UsageError OptionArgument :=
  let (option, value) := cutAtEquals cs
  if t.valued.contains option then
    match value with
    | some v => .ok (.complete [.setting option v])
    | none => .ok (.pending option)
  else if t.flags.contains option then
    match value with
    | some _ => .error (.takesNoValue option)
    | none => .ok (.complete [.flag option])
  else .error (.noSuchOption option (meant option t.longOptions))

/-- What an argument that is an option stands for. -/
def readOption (t : OptionTable) (arg : String) : Except UsageError OptionArgument :=
  match arg.toList with
  | '-' :: '-' :: cs => t.readLong ('-' :: '-' :: cs)
  | cs => t.readLetters cs.tail

/-- The options among the arguments, in order, and the other arguments. -/
def read (t : OptionTable) : List String → Except UsageError (List Occurrence × List String)
  | [] => .ok ([], [])
  | arg :: rest =>
    if arg = "--" then .ok ([], rest)
    else if isOption arg then do
      match ← t.readOption arg with
      | .complete options =>
        let (more, others) ← t.read rest
        return (options ++ more, others)
      | .pending option =>
        match rest with
        | [] => throw (.needsArgument option)
        | value :: rest =>
          let (more, others) ← t.read rest
          return (.setting option value :: more, others)
    else if t.interspersed then do
      let (options, others) ← t.read rest
      return (options, arg :: others)
    else .ok ([], arg :: rest)

end OptionTable

/-- The values of an option, in order. -/
def valuesOf (option : String) (options : List Occurrence) : List String :=
  options.filterMap fun
    | .setting o v => if o = option then some v else none
    | .flag _ => none

/-- The value of an option that counts once: the last one. -/
def valueOf? (option : String) (options : List Occurrence) : Option String :=
  (valuesOf option options).getLast?

end ApiSchema.CommandLine
