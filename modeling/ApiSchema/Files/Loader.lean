/-
Values from files.

Which value a text writes is for a loader to say.  The library asks no more of one
than `Loader`, so what it does with values is the same for every loader.  The
loader of the program is the one of `Yaml/Loader.lean`.

A loader gives a value, fails with an error of its own, or ends the program.  A
text is made of characters and a value is a tree, so documents are left out in
which half a character stands alone or a value contains itself.

A file is looked for before it is read, so that a missing one is told apart from
one that cannot be read.
-/
import ApiSchema.Files.FileSystem
import ApiSchema.Value.Basic

namespace ApiSchema

/-- A reader of the texts of files. -/
class Loader where
  /-- The value that a text writes.  An error is given by the loader's own words. -/
  load : String → Except (Failure String) Value

/-- Why no value comes from a file. -/
inductive FileError where
  /-- Nothing stands at the path. -/
  | missing
  /-- The file system refuses. -/
  | refused (r : Refusal)
  /-- The text of the file is malformed. -/
  | malformed (message : String)
deriving DecidableEq, Repr

open FileSystem

/-- The value that a file holds. -/
def Loader.readFile [Loader] {m : Type → Type} [Monad m] [FileSystem m] (p : Path) :
    ExceptT (Failure FileError) m Value := do
  unless ← (isPresent p).adapt (Failure.map .refused) do throw (.error .missing)
  let text ← (readText p).adapt (Failure.map .refused)
  ExceptT.mk (pure ((load text).mapError (Failure.map .malformed)))

end ApiSchema
