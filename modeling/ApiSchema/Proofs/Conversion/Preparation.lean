/-
What a conversion does before it writes.

A conversion has two halves.  The first one reads the settings and the document and
converts the schemas (`prepare`); it only looks at files.  The second one writes, if
files are wanted.  So what the first half gives is decided by the settings and the
document that the store has for the request (`Loads`), and it is what the whole
conversion gives that writes no files.
-/
import ApiSchema.Conversion
import ApiSchema.Proofs.DistinctKeys
import ApiSchema.Proofs.Files.Run

namespace ApiSchema

namespace Conversion

variable {request : ConversionRequest} {s t : Store} {settings : Settings} {d : Document}
  {output : OutputSettings} {schemas : List ConvertedSchema}

/-! ### Names and their schemas -/

/-- The names to convert, of which there may be none. -/
def listed (request : ConversionRequest) (d : Document) : List String :=
  if request.schemas.isEmpty then Document.schemaNames d.root else request.schemas

theorem selectNames_eq (request : ConversionRequest) (d : Document) :
    selectNames request d =
      if (listed request d).isEmpty then .error (.error (.noSchemas request.document))
      else .ok (listed request d) := rfl

/-- The converted schemas of a document. -/
def convertSchemas (request : ConversionRequest) (settings : Settings) (d : Document) :
    Except (Failure ConversionError) (List ConvertedSchema) := do
  let names ← selectNames request d
  names.mapM fun name => (convertSchema d.value settings.references name).result

/-! ### The two halves -/

variable [Loader]

/-- What a conversion does before it writes: how schemas are printed, and the converted ones. -/
def prepare {m : Type → Type} [Monad m] [FileSystem m] (request : ConversionRequest) :
    ExceptT (Failure ConversionError) m (OutputSettings × List ConvertedSchema) := do
  let settings ← loadSettings request
  let document ← (Document.load request.document).untraced.adapt (.map .document)
  let names ← ExceptT.mk (pure (selectNames request document))
  let schemas ← ExceptT.mk (pure (names.mapM fun name =>
    (convertSchema document.value settings.references name).result))
  return (settings.output, schemas)

/-- A conversion prepares and then writes. -/
theorem untraced_run {m : Type → Type} [Monad m] [LawfulMonad m] [FileSystem m]
    (request : ConversionRequest) :
    (run request : TracedT _ m Conversion).untraced = (do
      let (output, schemas) ← prepare request
      let outputPaths ← writeOutput request output schemas
      return { schemas, outputPaths, output }) := by
  simp only [run, prepare, TracedT.untraced_bind, TracedT.untraced_ofExceptT,
    TracedT.untraced_ofTraced, TracedT.untraced_mapError, TracedT.untraced_pure, bind_assoc,
    pure_bind, Traced.result_mapM, Traced.result_ofExcept]

theorem quiet_loadSettings (request : ConversionRequest) : Quiet (loadSettings request) := by
  rw [loadSettings]
  split
  · exact .adapt (.bind (.adapt (.readFile _) _) fun _ => .mk_pure _) _
  · exact .pure _

theorem quiet_loadDocument (path : String) :
    Quiet (Document.load path : TracedT _ (StateM Store) Document).untraced := by
  rw [Document.load, TracedT.untraced_bind, TracedT.untraced_ofExceptT]
  refine .bind (.adapt (.readFile _) _) fun value => ?_
  cases value with
  | mapping root =>
    dsimp only
    rw [TracedT.untraced_bind, TracedT.untraced_ofExceptT]
    refine .bind (.absolute _) fun place => ?_
    split <;> exact .mk_pure _
  | _ => exact .mk_pure _

theorem quiet_prepare (request : ConversionRequest) : Quiet (prepare request) :=
  .bind (quiet_loadSettings request) fun _ =>
    .bind (.adapt (quiet_loadDocument _) _) fun _ =>
      .bind (.mk_pure _) fun _ => .bind (.mk_pure _) fun _ => .pure _

/-! ### What is loaded -/

/-- The store has these settings and this document for the request. -/
structure Loads (request : ConversionRequest) (s : Store) (settings : Settings) (d : Document) :
    Prop where
  settings : Yields (loadSettings request) s (.ok settings) s
  document : Yields (Document.load request.document).untraced s (.ok d) s

/-- A file gives the value of some text. -/
theorem exists_load_of_readFile {p : Path} {v : Value}
    (h : Yields (Loader.readFile p) s (.ok v) t) : ∃ text, Loader.load text = .ok v := by
  obtain ⟨there, u, -, hrest⟩ := Yields.exists_of_bind_ok h
  cases there with
  | false =>
    obtain ⟨_, _, hthrow, -⟩ := Yields.exists_of_bind_ok hrest
    exact absurd (Yields.throw_iff.mp hthrow).1 (by simp)
  | true =>
    obtain ⟨text, _, -, hread⟩ := Yields.exists_of_bind_ok hrest
    exact ⟨text, mapError_eq_ok.mp (Yields.mk_pure_iff.mp hread).1.symm⟩

/-- The file of a document that is loaded gives the document. -/
theorem Loads.read_document (h : Loads request s settings d) :
    Yields (Loader.readFile (Path.ofText request.document)) s (.ok d.value) s := by
  have hload := h.document
  rw [Document.load, TracedT.untraced_bind, TracedT.untraced_ofExceptT] at hload
  obtain ⟨v, u, hread, hrest⟩ := Yields.exists_of_bind_ok hload
  obtain rfl := Quiet.adapt (.readFile _) _ _ _ _ hread
  cases v with
  | mapping root =>
    dsimp only at hrest
    rw [TracedT.untraced_bind, TracedT.untraced_ofExceptT] at hrest
    obtain ⟨place, w, -, hchecked⟩ := Yields.exists_of_bind_ok hrest
    split at hchecked
    · obtain ⟨hd, -⟩ := Yields.mk_pure_iff.mp hchecked
      rw [Except.ok.inj hd]
      exact Yields.adapt_ok_iff.mp hread
    · exact absurd (Yields.mk_pure_iff.mp hchecked).1 (by simp)
  | _ => exact absurd (Yields.mk_pure_iff.mp hrest).1 (by simp)

/-- A document that is loaded has distinct keys. -/
theorem Loads.distinctKeys [LawfulLoader] (h : Loads request s settings d) :
    DistinctKeys d.value := by
  obtain ⟨text, htext⟩ := exists_load_of_readFile h.read_document
  exact LawfulLoader.distinctKeys htext

/-- After the settings and the document are loaded, no files are looked at. -/
theorem prepare_eq (request : ConversionRequest) :
    (prepare request : ExceptT _ (StateM Store) _) = (do
      let settings ← loadSettings request
      let document ← (Document.load request.document).untraced.adapt (.map .document)
      ExceptT.mk (pure
        ((convertSchemas request settings document).map (settings.output, ·)))) := by
  rw [prepare]
  refine bind_congr fun settings => bind_congr fun d => ?_
  rw [convertSchemas]
  cases selectNames request d with
  | error e => rfl
  | ok names =>
    show (ExceptT.mk (pure (names.mapM fun name =>
        (convertSchema d.value settings.references name).result)) >>= fun schemas =>
          pure (settings.output, schemas) : ExceptT _ (StateM Store) _) =
      ExceptT.mk (pure ((names.mapM fun name =>
        (convertSchema d.value settings.references name).result) >>= fun schemas =>
          .ok (settings.output, schemas)))
    cases names.mapM fun name => (convertSchema d.value settings.references name).result <;> rfl

theorem Loads.yields_prepare_iff (h : Loads request s settings d)
    {r : Except (Failure ConversionError) (OutputSettings × List ConvertedSchema)} :
    Yields (prepare request) s r t ↔
      r = (convertSchemas request settings d).map (settings.output, ·) ∧ t = s := by
  rw [prepare_eq, Yields.bind_iff_of_ok h.settings,
    Yields.bind_iff_of_ok (Yields.adapt_ok_iff.mpr h.document), Yields.mk_pure_iff]

/-- What is prepared is the converted schemas of a document that is loaded. -/
theorem exists_loads_of_prepare (h : Yields (prepare request) s (.ok (output, schemas)) t) :
    ∃ settings d, Loads request s settings d ∧ convertSchemas request settings d = .ok schemas ∧
      settings.output = output := by
  rw [prepare_eq] at h
  obtain ⟨settings, u, hsettings, hrest⟩ := Yields.exists_of_bind_ok h
  obtain rfl := quiet_loadSettings request _ _ _ hsettings
  obtain ⟨d, v, hdocument, hschemas⟩ := Yields.exists_of_bind_ok hrest
  replace hdocument := Yields.adapt_ok_iff.mp hdocument
  obtain rfl := quiet_loadDocument _ _ _ _ hdocument
  obtain ⟨hmap, -⟩ := Yields.mk_pure_iff.mp hschemas
  cases hconverted : convertSchemas request settings d with
  | error e => simp [hconverted, Except.map] at hmap
  | ok schemas =>
    rw [hconverted] at hmap
    obtain ⟨rfl, rfl⟩ := Prod.mk.inj (Except.ok.inj hmap)
    exact ⟨settings, d, ⟨hsettings, hdocument⟩, hconverted, rfl⟩

/-- Nothing is loaded for the request, and this is why. -/
inductive NotLoaded (request : ConversionRequest) (s : Store) : Failure ConversionError → Prop
  /-- There are no settings. -/
  | settings {failure : Failure ConversionError}
    (fails : Yields (loadSettings request) s (.error failure) s) : NotLoaded request s failure
  /-- There is no document. -/
  | document {settings : Settings} {failure : Failure ConversionError}
    (settings_loaded : Yields (loadSettings request) s (.ok settings) s)
    (fails : Yields ((Document.load request.document).untraced.adapt (Failure.map .document)) s
      (.error failure) s) : NotLoaded request s failure

/-- Preparing fails before the schemas are converted, or while they are. -/
theorem prepare_error_iff {failure : Failure ConversionError} :
    Yields (prepare request) s (.error failure) t ↔ t = s ∧ (NotLoaded request s failure ∨
      ∃ settings d, Loads request s settings d ∧
        convertSchemas request settings d = .error failure) := by
  constructor
  · intro h
    obtain rfl := quiet_prepare request _ _ _ h
    refine ⟨rfl, ?_⟩
    rw [prepare_eq] at h
    rcases Yields.bind_iff.mp h with ⟨e, he, hsettings⟩ | ⟨settings, u, hsettings, hrest⟩
    · obtain rfl := Except.error.inj he
      exact .inl (.settings hsettings)
    obtain rfl := quiet_loadSettings request _ _ _ hsettings
    rcases Yields.bind_iff.mp hrest with ⟨e, he, hdocument⟩ | ⟨d, u, hdocument, hschemas⟩
    · obtain rfl := Except.error.inj he
      exact .inl (.document hsettings hdocument)
    · replace hdocument := Yields.adapt_ok_iff.mp hdocument
      obtain rfl := quiet_loadDocument _ _ _ _ hdocument
      refine .inr ⟨settings, d, ⟨hsettings, hdocument⟩, ?_⟩
      have hmap := (Yields.mk_pure_iff.mp hschemas).1
      cases hconverted : convertSchemas request settings d with
      | ok schemas => simp [hconverted, Except.map] at hmap
      | error e =>
        rw [hconverted] at hmap
        exact congrArg _ (Except.error.inj hmap).symm
  · rintro ⟨rfl, (hfails | ⟨hsettings, hfails⟩) | ⟨settings, d, hloads, hfails⟩⟩
    · exact hfails.bind_of_error
    · exact hsettings.bind_of_ok hfails.bind_of_error
    · exact hloads.yields_prepare_iff.mpr ⟨by rw [hfails]; rfl, rfl⟩

/-! ### The whole conversion -/

/-- A conversion succeeds when its schemas are converted and written. -/
theorem run_ok_iff {c : Conversion} :
    Yields (run request : TracedT _ _ Conversion).untraced s (.ok c) t ↔
      ∃ settings d, Loads request s settings d ∧ convertSchemas request settings d = .ok c.schemas ∧
        settings.output = c.output ∧
        Yields (writeOutput request c.output c.schemas) s (.ok c.outputPaths) t := by
  rw [untraced_run]
  constructor
  · intro h
    obtain ⟨⟨output, schemas⟩, u, hprepare, hrest⟩ := Yields.exists_of_bind_ok h
    obtain rfl := quiet_prepare request _ _ _ hprepare
    obtain ⟨settings, d, hloads, hschemas, houtput⟩ := exists_loads_of_prepare hprepare
    obtain ⟨paths, v, hwrite, hpure⟩ := Yields.exists_of_bind_ok hrest
    obtain ⟨hc, rfl⟩ := Yields.pure_iff.mp hpure
    obtain rfl := Except.ok.inj hc
    exact ⟨settings, d, hloads, hschemas, houtput, hwrite⟩
  · rintro ⟨settings, d, hloads, hschemas, houtput, hwrite⟩
    have hprepare : Yields (prepare request) s (.ok (c.output, c.schemas)) s :=
      hloads.yields_prepare_iff.mpr ⟨by rw [hschemas, ← houtput]; rfl, rfl⟩
    exact hprepare.bind_of_ok (hwrite.bind_of_ok (Yields.pure_iff.mpr ⟨rfl, rfl⟩))

/-- A conversion fails before the schemas are converted, while they are, or while they are
written. -/
theorem run_error_iff {failure : Failure ConversionError} :
    Yields (run request : TracedT _ _ Conversion).untraced s (.error failure) t ↔
      NotLoaded request s failure ∧ t = s ∨ ∃ settings d, Loads request s settings d ∧
        (convertSchemas request settings d = .error failure ∧ t = s ∨
          ∃ schemas, convertSchemas request settings d = .ok schemas ∧
            Yields (writeOutput request settings.output schemas) s (.error failure) t) := by
  rw [untraced_run]
  constructor
  · intro h
    rcases Yields.bind_iff.mp h with ⟨e, he, hprepare⟩ | ⟨⟨output, schemas⟩, u, hprepare, hrest⟩
    · obtain rfl := Except.error.inj he
      obtain ⟨hts, hnot | ⟨settings, d, hloads, hfails⟩⟩ := prepare_error_iff.mp hprepare
      · exact .inl ⟨hnot, hts⟩
      · exact .inr ⟨settings, d, hloads, .inl ⟨hfails, hts⟩⟩
    obtain rfl := quiet_prepare request _ _ _ hprepare
    obtain ⟨settings, d, hloads, hschemas, rfl⟩ := exists_loads_of_prepare hprepare
    rcases Yields.bind_iff.mp hrest with ⟨e, he, hwrite⟩ | ⟨_, v, -, hpure⟩
    · obtain rfl := Except.error.inj he
      exact .inr ⟨settings, d, hloads, .inr ⟨schemas, hschemas, hwrite⟩⟩
    · simp [Yields.pure_iff] at hpure
  · rintro (⟨hnot, rfl⟩ | ⟨settings, d, hloads, ⟨hfails, rfl⟩ | ⟨schemas, hschemas, hwrite⟩⟩)
    · exact (prepare_error_iff.mpr ⟨rfl, .inl hnot⟩).bind_of_error
    · exact (prepare_error_iff.mpr ⟨rfl, .inr ⟨settings, d, hloads, hfails⟩⟩).bind_of_error
    · have hprepare : Yields (prepare request) s (.ok (settings.output, schemas)) s :=
        hloads.yields_prepare_iff.mpr ⟨by rw [hschemas]; rfl, rfl⟩
      exact hprepare.bind_of_ok hwrite.bind_of_error

/-- Either there are settings and a document for the request, or there is a reason why not. -/
theorem loads_or_notLoaded (request : ConversionRequest) (s : Store) :
    (∃ settings d, Loads request s settings d) ∨ ∃ failure, NotLoaded request s failure := by
  obtain ⟨_ | settings, hsettings⟩ := (quiet_loadSettings request).exists_yields s
  · exact .inr ⟨_, .settings hsettings⟩
  obtain ⟨failure | d, hdocument⟩ := (quiet_loadDocument request.document).exists_yields s
  · exact .inr ⟨_, .document hsettings (Yields.adapt_error_iff.mpr ⟨failure, hdocument, rfl⟩)⟩
  · exact .inl ⟨settings, d, hsettings, hdocument⟩

/-- Without files to be written, a conversion yields what it would write. -/
theorem yields_run_of_prepare
    (h : Yields (prepare request) s (.ok (output, schemas)) t) :
    Yields (run { request with outputDirectory := none } : TracedT _ _ Conversion).untraced s
      (.ok ⟨schemas, [], output⟩) t := by
  rw [untraced_run]
  exact h.bind_of_ok (Yields.pure_iff.mpr ⟨rfl, rfl⟩)

end Conversion

end ApiSchema
