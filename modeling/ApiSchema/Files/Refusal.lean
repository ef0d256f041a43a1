/-
Why an operation on files is refused.

A refusal names its cause and the path that was given.  Its message is the one
that operating systems print, with the number of the error in front.
-/
import ApiSchema.Files.Path
import ApiSchema.Text.Quoted

namespace ApiSchema

/-- The cause of a refusal. -/
inductive RefusalCause where
  /-- Nothing stands at the path, or its directory is missing. -/
  | missing
  /-- Something stands at the path already. -/
  | present
  /-- A file is used as a directory. -/
  | notDirectory
  /-- A directory is used as a file. -/
  | isDirectory
  /-- A name of the path, or the path itself, is too long. -/
  | nameTooLong
  /-- Any other cause, by its number and text. -/
  | other (number : Nat) (text : String)
deriving DecidableEq, Repr

namespace RefusalCause

/-- The number of the cause. -/
def number : RefusalCause → Nat
  | missing => 2
  | present => 17
  | notDirectory => 20
  | isDirectory => 21
  | nameTooLong => 36
  | other n _ => n

/-- The text of the cause. -/
def text : RefusalCause → String
  | missing => "No such file or directory"
  | present => "File exists"
  | notDirectory => "Not a directory"
  | isDirectory => "Is a directory"
  | nameTooLong => "File name too long"
  | other _ t => t

end RefusalCause

/-- A refused operation. -/
structure Refusal where
  /-- Why it is refused. -/
  cause : RefusalCause
  /-- The path that was given. -/
  path : Path
deriving DecidableEq, Repr

/-- What the refusal says. -/
def Refusal.message (r : Refusal) : String :=
  s!"[Errno {r.cause.number}] {r.cause.text}: {Text.quoted r.path.text}"

end ApiSchema
