/-
Conversions of documents in another order.

A conversion selects schemas by name, so alike documents give alike schemas under
the same names.  What may differ is the order of the names, because all names are
listed in the order of the document, and which failure is met first.  Neither can be
seen in a text whose keys are sorted: the schemas stand in it under their names, and
those that stand under one name come from one place.

So the text is the same for all orders of the document, and for every order there is
one or for none.
-/
import ApiSchema.Proofs.Conversion.Preparation
import ApiSchema.Proofs.Document.Selection
import ApiSchema.Proofs.Reference.Meaning
import ApiSchema.Proofs.Reference.Reordering
import ApiSchema.Proofs.Rendering

namespace ApiSchema

open Document (componentSchemas? schemaNames)

/-! ### Schemas under their names -/

/-- The schemas that a function gives for names. -/
def convertedSchemas (names : List String) (schema : String → Value) : List ConvertedSchema :=
  names.map fun name => ⟨name, schema name⟩

theorem get?_names (names : List String) (schema : String → Value) (name : String) :
    Entries.get? (names.map fun n => (.str n, schema n)) name =
      if name ∈ names then some (schema name) else none := by
  induction names with
  | nil => rfl
  | cons n names ih =>
    rw [List.map_cons, Entries.get?_cons, ih]
    by_cases hn : name = n
    · simp [hn]
    · simp [hn, Ne.symm hn]

namespace Alike

/-- Alike schemas under the same names are printed as alike values, whatever the order of the
names. -/
theorem schemasValue {names others : List String} {schema schema' : String → Value}
    (hperm : names.Perm others) (h : ∀ name ∈ names, Alike (schema name) (schema' name)) :
    Alike (ApiSchema.schemasValue (convertedSchemas names schema))
      (ApiSchema.schemasValue (convertedSchemas others schema')) := by
  by_cases hlength : names.length = 1
  · obtain ⟨name, rfl⟩ := List.length_eq_one_iff.mp hlength
    obtain rfl := List.singleton_perm.mp hperm
    exact h name (by simp)
  · have hlength' : others.length ≠ 1 := hperm.length_eq ▸ hlength
    have hpairs {ns : List String} {g : String → Value} :
        (convertedSchemas ns g).map (fun s => (Scalar.str s.name, s.schema)) =
          ns.map fun n => (.str n, g n) := List.map_map
    rw [schemasValue_of_length_ne (by simpa [convertedSchemas] using hlength),
      schemasValue_of_length_ne (by simpa [convertedSchemas] using hlength'), hpairs, hpairs]
    refine mapping_iff.mpr ⟨.ofPairs ?_, .ofPairs ?_, fun name => ?_⟩
    · simp [Scalar.isText]
    · simp [Scalar.isText]
    · rw [Entries.get?_ofPairs, Entries.get?_ofPairs, ← List.map_reverse, ← List.map_reverse,
        get?_names, get?_names]
      simp only [List.mem_reverse, ← hperm.mem_iff]
      split
      · next hname => exact .some (h name hname)
      · exact .none

/-! ### Names -/

variable {root other schemas : Entries}

theorem exists_componentSchemas (h : Alike (.mapping root) (.mapping other))
    (hschemas : componentSchemas? root = some schemas) :
    ∃ schemas', componentSchemas? other = some schemas' ∧
      Alike (.mapping schemas) (.mapping schemas') := by
  obtain ⟨components, hcomponents, hentries⟩ := Document.componentSchemas?_eq_some_iff.mp hschemas
  obtain ⟨w, hw, hcomponentsAlike⟩ := exists_of_rel_some (h.lookup "components") hcomponents
  obtain ⟨components', rfl⟩ := hcomponentsAlike.exists_entries
  obtain ⟨x, hx, hschemasAlike⟩ := exists_of_rel_some (hcomponentsAlike.lookup "schemas") hentries
  obtain ⟨schemas', rfl⟩ := hschemasAlike.exists_entries
  exact ⟨schemas', Document.componentSchemas?_eq_some_iff.mpr ⟨components', hw, hx⟩, hschemasAlike⟩

/-- Alike documents list the same names. -/
theorem schemaNames_perm (h : Alike (.mapping root) (.mapping other)) :
    (schemaNames root).Perm (schemaNames other) := by
  rw [schemaNames, schemaNames, Document.schemaKeys, Document.schemaKeys]
  cases hschemas : componentSchemas? root with
  | some schemas =>
    obtain ⟨schemas', hschemas', halike⟩ := h.exists_componentSchemas hschemas
    obtain ⟨hreordered, -, -⟩ := halike
    rw [hschemas']
    cases hreordered with
    | mapping keys_perm _ => exact keys_perm.map _
  | none =>
    cases hother : componentSchemas? other with
    | none => exact .refl _
    | some schemas' =>
      obtain ⟨schemas, hsome, -⟩ := h.symm.exists_componentSchemas hother
      simp [hschemas] at hsome

end Alike

namespace Conversion

variable {request : ConversionRequest} {settings : Settings} {d e : Document} {s s' t t' : Store}

theorem selectNames_perm (h : Alike d.value e.value) {names : List String}
    (hnames : selectNames request d = .ok names) :
    ∃ others, selectNames request e = .ok others ∧ names.Perm others := by
  have hperm : (listed request d).Perm (listed request e) := by
    rw [listed, listed]
    split
    · exact h.schemaNames_perm
    · exact .refl _
  rw [selectNames_eq] at hnames ⊢
  split at hnames
  · simp at hnames
  · next hsome =>
    rw [hperm.isEmpty_eq] at hsome
    exact ⟨listed request e, if_neg hsome, Except.ok.inj hnames ▸ hperm⟩

/-! ### Schemas -/

/-- Alike documents have alike schemas under the same name. -/
theorem convertSchema_alike {document other : Value} {settings : ReferenceSettings} {name : String}
    {c : ConvertedSchema} (h : Alike document other)
    (hc : (convertSchema document settings name).result = .ok c) :
    ∃ v w, c = ⟨name, v⟩ ∧ (convertSchema other settings name).result = .ok ⟨name, w⟩ ∧
      Alike v w := by
  obtain ⟨target, schema, m, htarget, hschema, hm, rfl⟩ := convertSchema_eq_ok hc
  obtain ⟨target', htarget', halike⟩ := h.resolve htarget
  have hinlined : ∃ schema', (if settings.inline then
      (inline other settings.areas target').result else .ok target') = .ok schema' ∧
        Alike schema schema' := by
    cases hsetting : settings.inline with
    | true => exact h.inline halike (by simpa [hsetting] using hschema)
    | false =>
      rw [hsetting] at hschema
      exact ⟨target', rfl, hschema ▸ halike⟩
  obtain ⟨schema', hschema', hschemas⟩ := hinlined
  obtain ⟨n, hn, hmn⟩ := hschemas.toDraft4 hm
  refine ⟨_, _, rfl, ?_, hmn⟩
  rw [result_convertSchema htarget', convertValue]
  refine bind_eq_ok.mpr ⟨schema', mapError_eq_ok.mpr hschema', bind_eq_ok.mpr ⟨n, ?_, rfl⟩⟩
  rw [result_mapLogged, hn, mapError_ok]

theorem convertSchemas_alike (h : Alike d.value e.value) {schemas : List ConvertedSchema}
    (hd : convertSchemas request settings d = .ok schemas) :
    ∃ others, convertSchemas request settings e = .ok others ∧
      Alike (schemasValue schemas) (schemasValue others) := by
  obtain ⟨names, hnames, hschemas⟩ := bind_eq_ok.mp hd
  obtain ⟨others, hothers, hperm⟩ := selectNames_perm h hnames
  have heach (name : String) (hname : name ∈ names) : ∃ v w,
      (convertSchema d.value settings.references name).result = .ok ⟨name, v⟩ ∧
      (convertSchema e.value settings.references name).result = .ok ⟨name, w⟩ ∧ Alike v w := by
    obtain ⟨c, hc⟩ := exists_ok_of_mapM hschemas name hname
    obtain ⟨v, w, rfl, hw, hvw⟩ := convertSchema_alike h hc
    exact ⟨v, w, hc, hw, hvw⟩
  choose! v w hv hw hvw using heach
  obtain rfl : convertedSchemas names v = schemas :=
    Except.ok.inj ((mapM_eq_ok_map hv).symm.trans hschemas)
  refine ⟨convertedSchemas others w, bind_eq_ok.mpr ⟨others, hothers, ?_⟩, .schemasValue hperm hvw⟩
  exact mapM_eq_ok_map fun name hname => hw name (hperm.mem_iff.mpr hname)

/-- The schemas of a document as one text. -/
def convertedText (request : ConversionRequest) (settings : Settings) (d : Document) :
    Except (Failure ConversionError) String := do
  let schemas ← convertSchemas request settings d
  (renderSchemas settings.output schemas).mapError .fault

theorem convertedText_alike (hsort : settings.output.sortKeys = true) (h : Alike d.value e.value)
    {text : String} (htext : convertedText request settings d = .ok text) :
    convertedText request settings e = .ok text := by
  obtain ⟨schemas, hschemas, hrender⟩ := bind_eq_ok.mp htext
  obtain ⟨others, hothers, halike⟩ := convertSchemas_alike h hschemas
  have hstyle : settings.output.style.sortKeys = true := hsort
  rw [renderSchemas, halike.render_eq hstyle] at hrender
  exact bind_eq_ok.mpr ⟨others, hothers, hrender⟩

/-! ### Runs -/

/-- Does what is asked for and answers with the text. -/
def runText [Loader] {m : Type → Type} [Monad m] [FileSystem m] (request : ConversionRequest) :
    ExceptT (Failure ConversionError) m String := do
  let c ← (run request).untraced
  ExceptT.mk (pure (c.text.mapError .fault))

/-- The text of a run that succeeds is that of the schemas of the document. -/
theorem Loads.text_eq [Loader] (h : Loads request s settings d) {c : Conversion}
    (hrun : Yields (run request : TracedT _ _ Conversion).untraced s (.ok c) t) :
    c.text.mapError .fault = convertedText request settings d := by
  rw [untraced_run] at hrun
  obtain ⟨⟨output, schemas⟩, u, hprepare, hrest⟩ := Yields.exists_of_bind_ok hrun
  obtain ⟨hschemas, -⟩ := h.yields_prepare_iff.mp hprepare
  obtain ⟨paths, v, -, hpure⟩ := Yields.exists_of_bind_ok hrest
  obtain ⟨hc, -⟩ := Yields.pure_iff.mp hpure
  rw [Except.ok.inj hc, convertedText]
  cases hconverted : convertSchemas request settings d with
  | error e => simp [hconverted, Except.map] at hschemas
  | ok converted =>
    rw [hconverted] at hschemas
    obtain ⟨rfl, rfl⟩ := Prod.mk.inj (Except.ok.inj hschemas)
    rfl

/-- A run that writes no files gives the text of the schemas of the document, or fails. -/
theorem Loads.yields_runText_iff [Loader] (h : Loads request s settings d)
    (hfiles : given request.outputDirectory = none) {text : String} :
    Yields (runText request) s (.ok text) s ↔ convertedText request settings d = .ok text := by
  constructor
  · intro hyields
    obtain ⟨c, u, hrun, hrender⟩ := Yields.exists_of_bind_ok hyields
    rw [← h.text_eq hrun]
    exact (Yields.mk_pure_iff.mp hrender).1.symm
  · intro htext
    obtain ⟨schemas, hschemas, hrender⟩ := bind_eq_ok.mp htext
    have hprepare : Yields (prepare request) s (.ok (settings.output, schemas)) s :=
      h.yields_prepare_iff.mpr ⟨by rw [hschemas]; rfl, rfl⟩
    have hrun : Yields (run request : TracedT _ _ Conversion).untraced s
        (.ok ⟨schemas, [], settings.output⟩) s := by
      rw [untraced_run, Yields.bind_iff_of_ok hprepare]
      simp only [writeOutput, hfiles, pure_bind]
      exact Yields.pure_iff.mpr ⟨rfl, rfl⟩
    rw [runText, Yields.bind_iff_of_ok hrun]
    exact Yields.mk_pure_iff.mpr ⟨hrender.symm, rfl⟩

/-- **With sorted keys the text does not depend on the order of the document.**  For any two roots
that are reordered the schemas have the same text or both have none, and so do two runs that load
such documents. -/
theorem runText_reordered [Loader] [LawfulLoader] (request : ConversionRequest)
    {settings : Settings} (hsort : settings.output.sortKeys = true) :
    (∀ d e : Document, WellKeyed d.value → Reordered d.value e.value →
      ∀ text, convertedText request settings d = .ok text ↔
        convertedText request settings e = .ok text) ∧
    ∀ s s' d e, Loads request s settings d → Loads request s' settings e →
      d.value.textKeys = true → Reordered d.value e.value →
        (given request.outputDirectory = none → ∀ text,
          Yields (runText request) s (.ok text) s ↔ Yields (runText request) s' (.ok text) s') ∧
        ∀ c c' t t', Yields (run request : TracedT _ _ Conversion).untraced s (.ok c) t →
          Yields (run request : TracedT _ _ Conversion).untraced s' (.ok c') t' →
          ∀ text, c.text = .ok text ↔ c'.text = .ok text := by
  have htext (d e : Document) (hkeys : WellKeyed d.value) (hreordered : Reordered d.value e.value)
      (text : String) : convertedText request settings d = .ok text ↔
        convertedText request settings e = .ok text := by
    have halike : Alike d.value e.value := .of_reordered hreordered hkeys
    exact ⟨convertedText_alike hsort halike, convertedText_alike hsort halike.symm⟩
  refine ⟨htext, fun s s' d e hd he htexts hreordered => ?_⟩
  replace htext := htext d e ⟨htexts, hd.distinctKeys⟩ hreordered
  refine ⟨fun hfiles text => ?_, fun c c' t t' hc hc' text => ?_⟩
  · rw [hd.yields_runText_iff hfiles, he.yields_runText_iff hfiles]
    exact htext text
  · rw [← mapError_eq_ok (r := Failure.fault), hd.text_eq hc, ← mapError_eq_ok (r := Failure.fault),
      he.text_eq hc']
    exact htext text

/-- A working directory with a document and with settings that replace references and sort keys. -/
def sortedStore (schemas : String) : Store :=
  ⟨[], [(["pets.yaml"], .file ("components: \x7bschemas: \x7b" ++ schemas ++ "\x7d\x7d").toUTF8),
    (["settings.yaml"], .file
      "references: \x7binline: true\x7d\noutput: \x7bsort_keys: true\x7d\n".toUTF8)]⟩

/-- All schemas of the document are to be converted with the settings. -/
def sortedRequest : ConversionRequest :=
  { document := "pets.yaml", settings := some "settings.yaml" }

/-- The root of the document, with its schemas in this order. -/
def petsRoot (schemas : Entries) : Entries :=
  [(.str "components", .mapping [(.str "schemas", .mapping schemas)])]

/-- A reference to the schema of the tags. -/
def tagReference : Value := .mapping [(.str "$ref", .str "#/components/schemas/Tag")]

/-- The schema of the pets first. -/
def petsFirst : Entries :=
  [(.str "Pet", .mapping [(.str "type", .str "array"), (.str "items", tagReference)]),
    (.str "Tag", .mapping [(.str "type", .str "string"), (.str "nullable", .bool true)])]

/-- The same schemas, with all entries the other way round. -/
def tagsFirst : Entries :=
  [(.str "Tag", .mapping [(.str "nullable", .bool true), (.str "type", .str "string")]),
    (.str "Pet", .mapping [(.str "items", tagReference), (.str "type", .str "array")])]

/-- The pets first, as it is written. -/
def petsFirstStore : Store :=
  sortedStore ("Pet: \x7btype: array, items: \x7b$ref: '#/components/schemas/Tag'\x7d\x7d, " ++
    "Tag: \x7btype: string, nullable: true\x7d")

/-- The tags first, as it is written. -/
def tagsFirstStore : Store :=
  sortedStore ("Tag: \x7bnullable: true, type: string\x7d, " ++
    "Pet: \x7bitems: \x7b$ref: '#/components/schemas/Tag'\x7d, type: array\x7d")

theorem reordered_petsRoot :
    Reordered (.mapping (petsRoot petsFirst)) (.mapping (petsRoot tagsFirst)) := by
  have hreference : Reordered tagReference tagReference := .single _ (.scalar _)
  have hpet := Reordered.swap (.str "type") (.str "items") (by decide)
    (.scalar (.str "array")) hreference
  have htag := Reordered.swap (.str "type") (.str "nullable") (by decide)
    (.scalar (.str "string")) (.scalar (.bool true))
  exact .single _ (.single _ (.swap _ _ (by decide) hpet htag))

theorem loads_of_toOption [Loader]
    (hsettings : ((loadSettings request : ExceptT _ (StateM Store) _).run.run s).run.1.toOption =
      some settings)
    (hdocument : ((Document.load request.document : TracedT _ (StateM Store) _).untraced.run.run
      s).run.1.toOption.map (fun d => (d.path, d.root)) = some (d.path, d.root)) :
    Loads request s settings d where
  settings := (quiet_loadSettings request).yields (toOption_eq_some_iff.mp hsettings)
  document := by
    obtain ⟨d', hd', heq⟩ := Option.map_eq_some_iff.mp hdocument
    obtain ⟨hpath, hroot⟩ := Prod.mk.inj heq
    obtain rfl : d' = d := by
      cases d
      cases d'
      rw [Document.mk.injEq]
      exact ⟨hpath, hroot⟩
    exact (quiet_loadDocument _).yields (toOption_eq_some_iff.mp hd')

/-- Both orders have a text, and it is the same. -/
theorem runText_reordered_pets :
    (∃ text, Yields (runText sortedRequest) petsFirstStore (.ok text) petsFirstStore) ∧
      ∀ text, Yields (runText sortedRequest) petsFirstStore (.ok text) petsFirstStore ↔
        Yields (runText sortedRequest) tagsFirstStore (.ok text) tagsFirstStore := by
  have hpets : Loads sortedRequest petsFirstStore ⟨⟨defaultAreas, true⟩, ⟨2, true⟩⟩
      ⟨"/pets.yaml", petsRoot petsFirst⟩ :=
    loads_of_toOption (by decide +kernel) (by decide +kernel)
  have htags : Loads sortedRequest tagsFirstStore ⟨⟨defaultAreas, true⟩, ⟨2, true⟩⟩
      ⟨"/pets.yaml", petsRoot tagsFirst⟩ :=
    loads_of_toOption (by decide +kernel) (by decide +kernel)
  have hsome : (convertedText sortedRequest ⟨⟨defaultAreas, true⟩, ⟨2, true⟩⟩
      ⟨"/pets.yaml", petsRoot petsFirst⟩).toOption.isSome = true := by
    decide +kernel
  obtain ⟨text, htext⟩ := Option.isSome_iff_exists.mp hsome
  refine ⟨⟨text, (hpets.yields_runText_iff rfl).mpr (toOption_eq_some_iff.mp htext)⟩, ?_⟩
  exact ((runText_reordered sortedRequest rfl).2 _ _ _ _ hpets htags rfl reordered_petsRoot).1 rfl

end Conversion

end ApiSchema
