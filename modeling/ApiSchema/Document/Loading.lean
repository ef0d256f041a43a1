/-
Documents from files.

A document file has to hold a mapping.  The document keeps the absolute path of
its file, and the log says how many component schemas it has.  Their names are
put together for that, so a key that cannot be written is found here.
-/
import ApiSchema.Document
import ApiSchema.Files.Loader
import ApiSchema.Trace

namespace ApiSchema

/-- Why a document is not loaded. -/
inductive DocumentError where
  /-- The file gives no value. -/
  | unreadable (path : Path) (cause : FileError)
  /-- The value is no mapping. -/
  | rootNotMapping (path : Path)
deriving DecidableEq, Repr

/-- What the error says. -/
def DocumentError.message : DocumentError → String
  | unreadable path .missing => s!"OpenAPI document not found: {path.text}"
  | unreadable _ (.refused r) => r.message
  | unreadable path (.malformed message) =>
    s!"Failed to parse OpenAPI document {path.text}: {message}"
  | rootNotMapping path => s!"OpenAPI document root must be a mapping: {path.text}"

namespace Document

/-- The document in a file. -/
def load [Loader] {m : Type → Type} [Monad m] [FileSystem m] (path : String) :
    TracedT (Failure DocumentError) m Document := do
  let p := Path.ofText path
  let value ← .ofExceptT ((Loader.readFile p).adapt (Failure.map (DocumentError.unreadable p)))
  match value with
  | .mapping root =>
    let place ← .ofExceptT (FileSystem.absolute p)
    unless (schemaKeys root).all Scalar.isWritable do TracedT.fail (.fault .tooManyDigits)
    TracedT.note (.loaded p.text (schemaNames root).length)
    return ⟨place, root⟩
  | _ => TracedT.fail (.error (.rootNotMapping p))

end Document

end ApiSchema
