/-
Converting the component schemas of a document.

A conversion reads the settings and the document, selects schemas by name,
replaces their references if the settings say so, maps them to draft-04 and
writes one file for each into a directory, if there is one.  The first failure
ends it.  Every name is checked before the directory is created, and each schema
is printed right before its file is written.
-/
import ApiSchema.Document.Loading
import ApiSchema.Reference.Inline
import ApiSchema.Rendering
import ApiSchema.Schema.Draft4
import ApiSchema.Settings.Loading

namespace ApiSchema

/-- What is to be converted. -/
structure ConversionRequest where
  /-- The file of the document. -/
  document : String
  /-- The names of the schemas; all if none is given. -/
  schemas : List String := []
  /-- The directory for the files, if files are wanted.  An empty text is none. -/
  outputDirectory : Option String := none
  /-- The file of the settings, if they are not the defaults.  An empty text is none. -/
  settings : Option String := none
deriving DecidableEq, Repr

/-- What a conversion yields. -/
structure Conversion where
  /-- The converted schemas, in the order of their names. -/
  schemas : List ConvertedSchema
  /-- The absolute paths of the files, in the same order. -/
  outputPaths : List String
  /-- How the schemas are printed. -/
  output : OutputSettings

/-- Why a conversion fails. -/
inductive ConversionError where
  /-- The settings cannot be loaded. -/
  | settings (cause : SettingsFileError)
  /-- The document cannot be loaded. -/
  | document (cause : DocumentError)
  /-- No name is given and the document lists none. -/
  | noSchemas (document : String)
  /-- A reference leads nowhere. -/
  | reference (cause : ReferenceError)
  /-- A schema has no draft-04 form. -/
  | rejected (name : String) (cause : Rejection)
  /-- A name cannot be the name of a file. -/
  | unsafeName (name : String)
  /-- The directory or a file cannot be written. -/
  | unwritable (r : Refusal)
deriving DecidableEq

/-- What the error says. -/
def ConversionError.message : ConversionError → String
  | settings cause => cause.message
  | document cause => cause.message
  | noSchemas path => s!"No component schemas found in {path}."
  | reference cause => cause.message
  | rejected name cause => cause.message (schemaLabel name)
  | unsafeName name => s!"Schema name '{name}' cannot be used as an output file name."
  | unwritable r => r.message

namespace Conversion

/-! ### Schemas -/

/-- Maps a schema to draft-04 and logs it. -/
def mapLogged (name : String) (schema : Value) : Traced (Failure ConversionError) Entries := do
  if schema.isMapping then Traced.note (.mapping (schemaLabel name))
  (Traced.ofExcept schema.toDraft4).mapError fun cause =>
    if cause.isWritable then .error (.rejected name cause) else .fault .tooManyDigits

/-- The component schema of a name in its draft-04 form. -/
def convertSchema (document : Value) (settings : ReferenceSettings) (name : String) :
    Traced (Failure ConversionError) ConvertedSchema := do
  let ref := Document.schemaReference name
  let schema ← Traced.mapError (.map .reference) do
    let target ← resolveLogged document settings.areas ref
    if settings.inline then ApiSchema.inline document settings.areas target else return target
  let entries ← mapLogged name schema
  Traced.note (.converted name)
  return ⟨name, .mapping entries⟩

/-- The names to convert: those asked for, or else all of the document. -/
def selectNames (request : ConversionRequest) (document : Document) :
    Except (Failure ConversionError) (List String) :=
  let names :=
    if request.schemas.isEmpty then Document.schemaNames document.root else request.schemas
  if names.isEmpty then .error (.error (.noSchemas request.document)) else .ok names

/-! ### Files -/

/-- The file of a schema: its name with an ending.  A name with a slash of either kind, or one that
names a directory, is not safe. -/
def fileName (name : String) : Except (Failure ConversionError) String :=
  if ["", ".", ".."].contains name || name.toList.any fun c => c = '/' || c = '\\' then
    .error (.error (.unsafeName name))
  else .ok (name ++ ".json")

variable {m : Type → Type} [Monad m] [FileSystem m]

/-- An operation whose refusal makes the conversion fail. -/
def writing {α : Type} (act : FileSystem.Operation m α) :
    ExceptT (Failure ConversionError) m α :=
  act.adapt (Failure.map .unwritable)

/-- Writes one schema, printed, with a line end behind it.  Answers with the absolute path. -/
def writeSchema (directory : Path) (settings : OutputSettings) (schema : Value) (file : String) :
    ExceptT (Failure ConversionError) m String := do
  let text ← ExceptT.mk (pure ((Json.render settings.style schema).mapError .fault))
  let path := directory.child file
  writing (FileSystem.writeText path (text ++ "\n"))
  FileSystem.absolute path

/-- Writes one file for each schema.  Answers with their absolute paths. -/
def writeSchemas (directory : Path) (settings : OutputSettings) (schemas : List ConvertedSchema) :
    ExceptT (Failure ConversionError) m (List String) := do
  let files ← ExceptT.mk (pure (schemas.mapM fun s => do return (s.schema, ← fileName s.name)))
  writing (FileSystem.ensureDirectories directory)
  files.mapM fun (schema, file) => writeSchema directory settings schema file

/-! ### Conversions -/

/-- A text that is not empty. -/
def given (text : Option String) : Option String := text.filter (· ≠ "")

/-- The settings of a conversion. -/
def loadSettings [Loader] (request : ConversionRequest) :
    ExceptT (Failure ConversionError) m Settings :=
  match given request.settings with
  | some path => (Settings.load path).adapt (Failure.map .settings)
  | none => pure {}

/-- Writes the files of a conversion, if files are wanted. -/
def writeOutput (request : ConversionRequest) (settings : OutputSettings)
    (schemas : List ConvertedSchema) : ExceptT (Failure ConversionError) m (List String) :=
  match given request.outputDirectory with
  | some directory => writeSchemas (Path.ofText directory) settings schemas
  | none => pure []

/-- Does what is asked for. -/
def run [Loader] (request : ConversionRequest) :
    TracedT (Failure ConversionError) m Conversion := do
  let settings ← .ofExceptT (loadSettings request)
  let document ← (Document.load request.document).mapError (.map .document)
  let names ← .ofTraced (.ofExcept (selectNames request document))
  let schemas ← .ofTraced (names.mapM (convertSchema document.value settings.references))
  let outputPaths ← .ofExceptT (writeOutput request settings.output schemas)
  return { schemas, outputPaths, output := settings.output }

/-- The schemas as one text. -/
def text (c : Conversion) : Except Fault String := renderSchemas c.output c.schemas

end Conversion

end ApiSchema
