/-
Several schemas and one at a time.

A conversion of several schemas is that of each one by itself: it loads the same
settings and the same document, and a schema is converted whatever else is.  So the
conversion of a list of names succeeds if that of every name does, with their schemas in
the order of the names, and it fails as that of the first name does that fails
(`run_batch`).

The same holds for what is written.  A file holds what is printed for its name alone,
against the files that were there before, also if the conversion overwrites a file that
it has read.
-/
import ApiSchema.Proofs.CommandLine.Arguments
import ApiSchema.Proofs.CommandLine.Outcome
import ApiSchema.Proofs.Conversion.Output
import ApiSchema.Proofs.Files.Reading

namespace ApiSchema

namespace Conversion

variable {request : ConversionRequest} {s t : Store} {settings : Settings} {d : Document}
  {name : String} {failure : Failure ConversionError}

/-- The request for these names, without files to be written. -/
def printing (request : ConversionRequest) (names : List String) : ConversionRequest :=
  { request with schemas := names, outputDirectory := none }

/-- What a conversion yields that writes no files. -/
def printed (output : OutputSettings) (schemas : List ConvertedSchema) : Conversion :=
  ⟨schemas, [], output⟩

theorem convertSchemas_of_ne_nil (h : request.schemas ≠ []) :
    convertSchemas request settings d = request.schemas.mapM fun name =>
      (convertSchema d.value settings.references name).result := by
  have hlisted : listed request d = request.schemas := by
    rw [listed, if_neg (by simpa using h)]
  rw [convertSchemas, selectNames_eq, hlisted, if_neg (by simpa using h)]
  rfl

theorem mapM_singleton {f : String → Except (Failure ConversionError) ConvertedSchema}
    (name : String) : [name].mapM f = (f name).map ([·]) := by
  rw [List.mapM_cons, List.mapM_nil]
  cases f name <;> rfl

section

variable [Loader]

/-! ### What is loaded -/

/-- Which schemas are wanted, and where, does not matter for what is loaded. -/
theorem Loads.congr {other : ConversionRequest} (h : Loads request s settings d)
    (hdocument : other.document = request.document)
    (hsettings : other.settings = request.settings) : Loads other s settings d := by
  refine ⟨?_, hdocument ▸ h.document⟩
  rw [loadSettings, hsettings]
  exact h.settings

theorem NotLoaded.congr {other : ConversionRequest} (h : NotLoaded request s failure)
    (hdocument : other.document = request.document)
    (hsettings : other.settings = request.settings) : NotLoaded other s failure := by
  have hsame : (loadSettings other : ExceptT _ (StateM Store) _) = loadSettings request := by
    rw [loadSettings, hsettings]
    rfl
  cases h with
  | settings fails => exact .settings (hsame ▸ fails)
  | document settings_loaded fails => exact .document (hsame ▸ settings_loaded) (hdocument ▸ fails)

/-- A conversion for which nothing is loaded fails for the same reason whatever it is to convert. -/
theorem NotLoaded.yields_run (h : NotLoaded request s failure) :
    Yields (run request : TracedT _ _ Conversion).untraced s (.error failure) s :=
  run_error_iff.mpr (.inl ⟨h, rfl⟩)

/-- A conversion that writes no files yields the converted schemas. -/
theorem Loads.yields_run (h : Loads request s settings d)
    (hfolder : given request.outputDirectory = none) :
    Yields (run request : TracedT _ _ Conversion).untraced s
      ((convertSchemas request settings d).map (printed settings.output)) s := by
  cases hschemas : convertSchemas request settings d with
  | error failure => exact run_error_iff.mpr (.inr ⟨settings, d, h, .inl ⟨hschemas, rfl⟩⟩)
  | ok schemas =>
    refine run_ok_iff.mpr ⟨settings, d, h, hschemas, rfl, ?_⟩
    rw [writeOutput, hfolder]
    exact Yields.pure_iff.mpr ⟨rfl, rfl⟩

/-! ### One name and several -/

/-- Names are converted one by one by this function, whether one or several are asked for. -/
def ByName (request : ConversionRequest) (s : Store) (output : OutputSettings)
    (f : String → Except (Failure ConversionError) ConvertedSchema) : Prop :=
  ∀ names, names ≠ [] → ∀ r t,
    Yields (run (printing request names) : TracedT _ _ Conversion).untraced s r t ↔
      r = (names.mapM f).map (printed output) ∧ t = s

theorem Loads.byName (h : Loads request s settings d) :
    ByName request s settings.output fun name =>
      (convertSchema d.value settings.references name).result := by
  intro names hnames r t
  have hother : Loads (printing request names) s settings d := h.congr rfl rfl
  rw [(hother.yields_run rfl).eq_iff, convertSchemas_of_ne_nil hnames]
  rfl

/-- If nothing is loaded, every name has the same failure. -/
theorem NotLoaded.byName (h : NotLoaded request s failure) :
    ByName request s {} fun _ => .error failure := by
  intro names hnames r t
  have hother : NotLoaded (printing request names) s failure := h.congr rfl rfl
  rw [hother.yields_run.eq_iff]
  cases names with
  | nil => simp at hnames
  | cons name names => rfl

theorem exists_byName (request : ConversionRequest) (s : Store) :
    ∃ output f, ByName request s output f := by
  rcases loads_or_notLoaded request s with ⟨settings, d, hloads⟩ | ⟨failure, hnot⟩
  · exact ⟨_, _, hloads.byName⟩
  · exact ⟨_, _, hnot.byName⟩

/-- The conversion of the name by itself succeeds with this schema, to be printed in this way. -/
def Converts (request : ConversionRequest) (s : Store) (output : OutputSettings) (name : String)
    (schema : ConvertedSchema) : Prop :=
  Yields (run (printing request [name]) : TracedT _ _ Conversion).untraced s
    (.ok (printed output [schema])) s

namespace ByName

variable {output : OutputSettings}
  {f : String → Except (Failure ConversionError) ConvertedSchema} {names : List String}

theorem ok_iff (h : ByName request s output f) (hnames : names ≠ []) {c : Conversion} :
    Yields (run (printing request names) : TracedT _ _ Conversion).untraced s (.ok c) t ↔
      t = s ∧ ∃ schemas, names.mapM f = .ok schemas ∧ c = printed output schemas := by
  rw [h names hnames, and_comm]
  cases names.mapM f <;> simp [Except.map]

theorem error_iff (h : ByName request s output f) (hnames : names ≠ []) :
    Yields (run (printing request names) : TracedT _ _ Conversion).untraced s (.error failure) t ↔
      t = s ∧ names.mapM f = .error failure := by
  rw [h names hnames, and_comm]
  cases names.mapM f <;> simp [Except.map, eq_comm]

theorem single_ok_iff (h : ByName request s output f) {c : Conversion} :
    Yields (run (printing request [name]) : TracedT _ _ Conversion).untraced s (.ok c) t ↔
      t = s ∧ ∃ schema, f name = .ok schema ∧ c = printed output [schema] := by
  rw [h.ok_iff (by simp), mapM_singleton]
  cases f name <;> simp [Except.map]

theorem single_succeeds_iff (h : ByName request s output f) :
    (∃ c t, Yields (run (printing request [name]) : TracedT _ _ Conversion).untraced s (.ok c) t) ↔
      ∃ schema, f name = .ok schema := by
  simp only [h.single_ok_iff]
  constructor
  · rintro ⟨_, _, -, schema, hschema, -⟩
    exact ⟨schema, hschema⟩
  · rintro ⟨schema, hschema⟩
    exact ⟨_, _, rfl, schema, hschema, rfl⟩

theorem single_error_iff (h : ByName request s output f) :
    Yields (run (printing request [name]) : TracedT _ _ Conversion).untraced s (.error failure) t ↔
      t = s ∧ f name = .error failure := by
  rw [h.error_iff (by simp), mapM_singleton]
  cases f name <;> simp [Except.map]

theorem converts_iff (h : ByName request s output f) {other : OutputSettings}
    {schema : ConvertedSchema} :
    Converts request s other name schema ↔ f name = .ok schema ∧ other = output := by
  rw [Converts, h.single_ok_iff]
  simp [printed]

end ByName

/-- A list of names is converted if each of them is. -/
theorem printing_succeeds_iff (hnames : request.schemas ≠ []) :
    (∃ c t, Yields (run (printing request request.schemas) : TracedT _ _ Conversion).untraced s
      (.ok c) t) ↔
    ∀ name ∈ request.schemas, ∃ c t,
      Yields (run (printing request [name]) : TracedT _ _ Conversion).untraced s (.ok c) t := by
  obtain ⟨output, f, hf⟩ := exists_byName request s
  simp only [hf.ok_iff hnames, hf.single_succeeds_iff]
  constructor
  · rintro ⟨_, _, -, schemas, hschemas, -⟩
    exact exists_ok_of_mapM hschemas
  · intro h
    obtain ⟨schemas, hschemas⟩ := mapM_eq_ok_of_forall h
    exact ⟨_, _, rfl, schemas, hschemas, rfl⟩

/-- The conversion of a list of names yields the schemas of each of them, in order. -/
theorem printing_ok_iff (hnames : request.schemas ≠ []) {c : Conversion} :
    Yields (run (printing request request.schemas) : TracedT _ _ Conversion).untraced s (.ok c) t ↔
      t = s ∧ c.outputPaths = [] ∧
        List.Forall₂ (Converts request s c.output) request.schemas c.schemas := by
  obtain ⟨output, f, hf⟩ := exists_byName request s
  rw [hf.ok_iff hnames]
  refine and_congr_right fun _ => ?_
  simp only [mapM_eq_ok_iff]
  constructor
  · rintro ⟨schemas, hschemas, rfl⟩
    exact ⟨rfl, hschemas.imp fun name schema hschema => hf.converts_iff.mpr ⟨hschema, rfl⟩⟩
  · rintro ⟨hpaths, hschemas⟩
    have hconverted := hschemas.imp fun name schema hschema => hf.converts_iff.mp hschema
    have houtput : c.output = output := by
      -- There is a name, and it tells how schemas are printed.
      generalize request.schemas = names at hnames hconverted
      generalize c.schemas = schemas at hconverted
      cases hconverted with
      | nil => simp at hnames
      | cons hfirst _ => exact hfirst.2
    refine ⟨c.schemas, hconverted.imp fun name schema hschema => hschema.1, ?_⟩
    rw [printed, ← hpaths, ← houtput]

/-- The conversion of a list of names fails as that of the first name does that fails. -/
theorem printing_error_iff (hnames : request.schemas ≠ []) :
    Yields (run (printing request request.schemas) : TracedT _ _ Conversion).untraced s
      (.error failure) t ↔
    t = s ∧ ∃ before name after, request.schemas = before ++ name :: after ∧
      (∀ other ∈ before, ∃ c u,
        Yields (run (printing request [other]) : TracedT _ _ Conversion).untraced s (.ok c) u) ∧
      Yields (run (printing request [name]) : TracedT _ _ Conversion).untraced s
        (.error failure) s := by
  obtain ⟨output, f, hf⟩ := exists_byName request s
  simp only [hf.error_iff hnames, hf.single_succeeds_iff, hf.single_error_iff, true_and,
    mapM_eq_error_iff]

/-! ### Files -/

/-- The file of a name holds what is printed for the name by itself. -/
theorem file_of_run (hnames : request.schemas ≠ []) {folder : String}
    (hfolder : given request.outputDirectory = some folder) {c : Conversion}
    (h : Yields (run request : TracedT _ _ Conversion).untraced s (.ok c) t) :
    ∀ name ∈ request.schemas, ∃ schema text, Converts request s c.output name schema ∧
      (printed c.output [schema]).text = .ok text ∧
      t.at? (fileAt (s.target (Path.ofText folder)) name) = some (.file (text ++ "\n").toUTF8) := by
  intro name hname
  obtain ⟨settings, d, hloads, hschemas, houtput, hwrite⟩ := run_ok_iff.mp h
  obtain ⟨-, hsame⟩ := names_of_convertSchemas hschemas
  rw [writeOutput, hfolder] at hwrite
  have hdelivered := delivered_of_writeSchemas hsame hwrite
  rw [convertSchemas_of_ne_nil hnames] at hschemas
  obtain ⟨schema, hschema⟩ := exists_ok_of_mapM hschemas name hname
  obtain ⟨text, htext, hfile⟩ := hdelivered.content schema (mem_of_mapM hschemas hname hschema)
  rw [name_of_convertSchema hschema] at hfile
  exact ⟨schema, text, hloads.byName.converts_iff.mpr ⟨hschema, houtput.symm⟩, htext, hfile⟩

/-! ### The program -/

/-- What is loaded is read from paths that files can have. -/
theorem Loads.zero_not_mem (h : Loads request s settings d) {path : String}
    (hpath : path = request.document ∨ request.settings = some path) :
    '\x00' ∉ path.toList := by
  rw [← Path.hasZero_ofText, Bool.not_eq_true]
  rcases hpath with rfl | hsettings
  · exact Yields.hasZero_of_readFile h.read_document
  · by_cases hempty : path = ""
    · rw [hempty]
      decide
    · have hload := h.settings
      have hgiven : given request.settings = some path := by
        rw [hsettings, given, Option.filter_some, if_pos (by simpa using hempty)]
      rw [loadSettings, hgiven] at hload
      obtain ⟨v, u, hread, -⟩ := Yields.exists_of_bind_ok (Yields.adapt_ok_iff.mp hload)
      exact Yields.hasZero_of_readFile (Yields.adapt_ok_iff.mp hread)

/-- The command `convert` prints the schema of the name that it is given. -/
theorem Converts.run_eq {output : OutputSettings} {schema : ConvertedSchema} {text : String}
    (h : Converts request s output name schema)
    (htext : (printed output [schema]).text = .ok text) :
    ((CommandLine.run (CommandLine.conversionArguments (printing request [name])) :
      StateM Store _).run s).run = (.ok ⟨0, text ++ "\n", ""⟩, s) := by
  obtain ⟨settings, d, hloads, -⟩ := run_ok_iff.mp h
  have hpaths : ∀ path ∈ CommandLine.paths (printing request [name]), '\x00' ∉ path.toList := by
    intro path hpath
    refine hloads.zero_not_mem ?_
    simpa [CommandLine.paths, printing, eq_comm] using hpath
  have hreads := CommandLine.readArguments_conversionArguments hpaths
  have hperform : Yields (CommandLine.Command.convert (printing request [name])).perform.untraced s
      (.ok (text ++ "\n")) s := by
    refine CommandLine.yields_perform_convert_iff.mpr (.inr ⟨_, h, ?_⟩)
    rw [CommandLine.conversionText, htext]
    rfl
  -- There are no control sequences in what is printed.
  have hshown : Shown (text ++ "\n").toList := by
    rw [String.toList_append]
    exact Shown.append_iff.mpr ⟨Json.shown_render htext, .of_all (by decide)⟩
  obtain ⟨lines, hrun⟩ := CommandLine.run_eq_of_yields hreads hperform
  rw [hrun, CommandLine.Outcome.ofTraced]
  simp only [hshown.withoutControls_eq, Bool.false_eq_true, if_false]

/-- **Several schemas are converted as each one is by itself.**  A list of names is converted if
every name is, with the schemas of the names in their order; and if not, the failure is that of the
first name that fails.  If the schemas are written to a directory, the file of a name holds what the
command `convert` prints for this name alone, against the files that were there before. -/
theorem run_batch (hnames : request.schemas ≠ []) :
    ((∃ c t, Yields (run (printing request request.schemas) : TracedT _ _ Conversion).untraced s
        (.ok c) t) ↔
      ∀ name ∈ request.schemas, ∃ c t,
        Yields (run (printing request [name]) : TracedT _ _ Conversion).untraced s (.ok c) t) ∧
    (∀ c t, Yields (run (printing request request.schemas) : TracedT _ _ Conversion).untraced s
        (.ok c) t ↔
      t = s ∧ c.outputPaths = [] ∧
        List.Forall₂ (Converts request s c.output) request.schemas c.schemas) ∧
    (∀ failure t,
      Yields (run (printing request request.schemas) : TracedT _ _ Conversion).untraced s
        (.error failure) t ↔
      t = s ∧ ∃ before name after, request.schemas = before ++ name :: after ∧
        (∀ other ∈ before, ∃ c u,
          Yields (run (printing request [other]) : TracedT _ _ Conversion).untraced s (.ok c) u) ∧
        Yields (run (printing request [name]) : TracedT _ _ Conversion).untraced s
          (.error failure) s) ∧
    ∀ folder c t, given request.outputDirectory = some folder →
      Yields (run request : TracedT _ _ Conversion).untraced s (.ok c) t →
      ∀ name ∈ request.schemas, ∃ schema text, Converts request s c.output name schema ∧
        (printed c.output [schema]).text = .ok text ∧
        t.at? (fileAt (s.target (Path.ofText folder)) name) =
          some (.file (text ++ "\n").toUTF8) ∧
        ((CommandLine.run (CommandLine.conversionArguments (printing request [name])) :
          StateM Store _).run s).run = (.ok ⟨0, text ++ "\n", ""⟩, s) := by
  refine ⟨printing_succeeds_iff hnames, fun c t => printing_ok_iff hnames,
    fun failure t => printing_error_iff hnames, fun folder c t hfolder h name hname => ?_⟩
  obtain ⟨schema, text, hconverts, htext, hfile⟩ := file_of_run hnames hfolder h name hname
  exact ⟨schema, text, hconverts, htext, hfile, hconverts.run_eq htext⟩

end

/-- The schemas of a document are to be written beside it. -/
def besideRequest : ConversionRequest :=
  { document := "Tag.json", schemas := ["Tag", "Pet", "Tag"], outputDirectory := some "." }

/-- The document has the name of the file of one of its schemas. -/
def tagPets : Store :=
  ⟨[], [(["Tag.json"], .file ("components: \x7bschemas: " ++
    "\x7bPet: \x7btype: object\x7d, Tag: \x7btype: string\x7d\x7d\x7d").toUTF8)]⟩

/-- The document is overwritten with what is printed for the tags as long as it is there. -/
theorem run_batch_tagPets :
    ∃ c t text, Yields (run besideRequest : TracedT _ _ Conversion).untraced tagPets (.ok c) t ∧
      t.at? ["Tag.json"] = some (.file (text ++ "\n").toUTF8) ∧
      ((CommandLine.run ["convert", "--document", "Tag.json", "--schema", "Tag"] :
        StateM Store _).run tagPets).run = (.ok ⟨0, text ++ "\n", ""⟩, tagPets) := by
  have hruns : (((run besideRequest : TracedT _ (StateM Store) Conversion).untraced.run.run
      tagPets).run.1.toOption).isSome = true := by
    decide +kernel
  obtain ⟨c, hc⟩ := Option.isSome_iff_exists.mp hruns
  obtain ⟨t, hyields⟩ : ∃ t, Yields (run besideRequest : TracedT _ _ Conversion).untraced tagPets
      (.ok c) t := ⟨_, .of_toOption hc⟩
  obtain ⟨-, -, -, hfiles⟩ := run_batch (by decide : besideRequest.schemas ≠ []) (s := tagPets)
  obtain ⟨schema, text, -, -, hfile, hprints⟩ :=
    hfiles "." c t (by decide) hyields "Tag" (by decide)
  have hplace : fileAt (tagPets.target (Path.ofText ".")) "Tag" = ["Tag.json"] := by decide
  rw [hplace] at hfile
  exact ⟨c, t, text, hyields, hfile, hprints⟩

end Conversion

end ApiSchema
