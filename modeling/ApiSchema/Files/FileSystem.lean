/-
Operations on files.

`FileSystem m` says what a monad has to offer: a few single operations, each of
which may be refused.  What the program does with files is built from these here,
once for every such monad, so that it runs on real files and can be reasoned
about on a `Store`.
-/
import ApiSchema.Fault
import ApiSchema.Files.Refusal

namespace ApiSchema

/-- A monad with files. -/
class FileSystem (m : Type → Type) where
  /-- Whether anything stands at a path.  Refused where not even that can be told. -/
  present : Path → m (Except RefusalCause Bool)
  /-- Whether a directory stands at a path. -/
  isDirectory : Path → m Bool
  /-- The bytes of a file. -/
  read : Path → m (Except RefusalCause ByteArray)
  /-- Creates a directory in one that exists. -/
  createDirectory : Path → m (Except RefusalCause Unit)
  /-- Creates a file with these bytes, or gives them to a file that exists. -/
  write : Path → ByteArray → m (Except RefusalCause Unit)
  /-- The absolute text of a path. -/
  resolve : Path → m String

namespace FileSystem

variable {m : Type → Type} [Monad m] [FileSystem m]

/-- A file operation of the program, which may fail. -/
abbrev Operation (m : Type → Type) := ExceptT (Failure Refusal) m

/-- A single operation on a path. -/
def attempt {α : Type} (p : Path) (act : Path → m (Except RefusalCause α)) : Operation m α :=
  ExceptT.mk do return (← act p).mapError fun cause => .error ⟨cause, p⟩

/-- The absolute text of a path, which is never refused. -/
def absolute {ε : Type} (p : Path) : ExceptT ε m String := ExceptT.lift (resolve p)

/-- Refuses a path that cannot be handed to a file system. -/
def checkZero (p : Path) : Operation m Unit :=
  if p.hasZero then throw (.fault .zeroInPath) else pure ()

/-- Whether anything stands at a path.  Nothing stands where no path leads. -/
def isPresent (p : Path) : Operation m Bool :=
  if p.hasZero then return false else attempt p present

/-- The text of a file, which has to be UTF-8. -/
def readText (p : Path) : Operation m String := do
  checkZero p
  let bytes ← attempt p read
  match String.fromUTF8? bytes with
  | some text => return text
  | none => throw (.fault .notUtf8)

/-- Writes a text to a file. -/
def writeText (p : Path) (text : String) : Operation m Unit := do
  checkZero p
  attempt p (write · text.toUTF8)

/-- Accepts that a directory stands at the path already. -/
def orPresent (p : Path) (cause : RefusalCause) : Operation m Unit := do
  unless ← (isDirectory p : m Bool) do throw (.error ⟨cause, p⟩)

/-- Creates a directory unless it is there, in one that has to exist. -/
def ensureDirectory (p : Path) : Operation m Unit := do
  match ← (createDirectory p : m _) with
  | .ok _ => return
  | .error .missing => throw (.error ⟨.missing, p⟩)
  | .error cause => orPresent p cause

/-- Creates a directory, whose names are given from the last to the first, and the missing ones
above it. -/
def ensureBelow (root : String) : List String → Operation m Unit
  | [] => ensureDirectory ⟨root, []⟩
  | name :: above => do
    let p : Path := ⟨root, (name :: above).reverse⟩
    match ← (createDirectory p : m _) with
    | .ok _ => return
    | .error .missing =>
      ensureBelow root above
      ensureDirectory p
    | .error cause => orPresent p cause

/-- Creates a directory and the missing ones above it, unless it is there. -/
def ensureDirectories (p : Path) : Operation m Unit := do
  checkZero p
  ensureBelow p.root p.parts.reverse

end FileSystem

end ApiSchema
