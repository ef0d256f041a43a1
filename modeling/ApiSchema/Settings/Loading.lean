/-
Settings from files, and the file that a user starts from.

A settings file is read like a document, but it may be empty.  Writing the
scaffold never replaces anything: a path at which something stands is refused.
-/
import ApiSchema.Files.Loader
import ApiSchema.Settings
import ApiSchema.Settings.Scaffold

namespace ApiSchema

/-- Why no settings come from a file. -/
inductive SettingsFileError where
  /-- The file gives no value. -/
  | unreadable (path : Path) (cause : FileError)
  /-- The value gives no settings. -/
  | invalid (cause : SettingsError)
deriving DecidableEq, Repr

/-- What the error says. -/
def SettingsFileError.message : SettingsFileError → String
  | unreadable path .missing => s!"Configuration file not found: {path.text}"
  | unreadable _ (.refused r) => r.message
  | unreadable _ (.malformed message) => s!"Failed to parse configuration file: {message}"
  | invalid cause => cause.message

/-- Why no scaffold is written. -/
inductive ScaffoldError where
  /-- Something stands at the place. -/
  | present (place : String)
  /-- The file system refuses. -/
  | refused (r : Refusal)
deriving DecidableEq, Repr

/-- What the error says. -/
def ScaffoldError.message : ScaffoldError → String
  | present place => s!"Configuration file already exists: {place}"
  | refused r => r.message

namespace Settings

variable {m : Type → Type} [Monad m] [FileSystem m]

/-- The settings in a file. -/
def load [Loader] (path : String) : ExceptT (Failure SettingsFileError) m Settings := do
  let p := Path.ofText path
  let value ← (Loader.readFile p).adapt (Failure.map (SettingsFileError.unreadable p))
  ExceptT.mk (pure ((ofValue value).mapError fun cause => .error (.invalid cause)))

/-- Writes the scaffold to a new file and answers with its absolute path. -/
def writeScaffold (path : String) : ExceptT (Failure ScaffoldError) m String := do
  let p := Path.ofText path
  if ← (FileSystem.isPresent p).adapt (Failure.map .refused) then
    throw (.error (.present (← FileSystem.absolute p)))
  (FileSystem.writeText p scaffold).adapt (Failure.map .refused)
  FileSystem.absolute p

end Settings

end ApiSchema
