/-
What a failed conversion leaves behind.

The first half of a conversion only looks at files.  The second one writes, if files
are wanted: it checks every name, then creates the directory, and then prints and
writes one schema after the other.

So a failure of the first half and an unsafe name leave the store as it was.  What
can fail after the directory is created, besides the store, is the printing of a
schema and a zero character in its name.  A conversion of schemas that can all be
printed under their names therefore changes nothing if it fails, unless the store
refuses.
-/
import ApiSchema.Proofs.Conversion.Preparation
import ApiSchema.Yaml.Loader

namespace ApiSchema

namespace Conversion

variable {request : ConversionRequest} {s t : Store} {failure : Failure ConversionError}

/-! ### Failures of the second half -/

/-- The schema can be printed, and its name is one that a path may hold. -/
def Printable (output : OutputSettings) (schema : ConvertedSchema) : Prop :=
  (∃ text, Json.render output.style schema.schema = .ok text) ∧ '\x00' ∉ schema.name.toList

instance (output : OutputSettings) (schema : ConvertedSchema) :
    Decidable (Printable output schema) :=
  decidable_of_iff
    (error? (Json.render output.style schema.schema) = none ∧ '\x00' ∉ schema.name.toList)
    (and_congr_left' error?_eq_none_iff)

/-- A schema is not written for one of three reasons, and then nothing is changed: the store
refuses, the schema has no text, or its path holds a zero character. -/
theorem writeSchema_error {directory : Path} {output : OutputSettings} {schema : Value}
    {file : String}
    (h : Yields (writeSchema directory output schema file) s (.error failure) t) :
    t = s ∧ ((∃ r, failure = .error (.unwritable r)) ∨
      (∃ fault, Json.render output.style schema = .error fault ∧ failure = .fault fault) ∨
        (∃ text, Json.render output.style schema = .ok text) ∧
          (directory.child file).hasZero = true ∧ failure = .fault .zeroInPath) := by
  rcases Yields.bind_iff.mp h with ⟨e, he, hrender⟩ | ⟨text, u, hrender, hrest⟩
  · obtain rfl := Except.error.inj he
    obtain ⟨hr, hts⟩ := Yields.mk_pure_iff.mp hrender
    obtain ⟨fault, hfault, hfails⟩ := mapError_eq_error.mp hr.symm
    exact ⟨hts, .inr (.inl ⟨fault, hfault, hfails.symm⟩)⟩
  obtain ⟨htext, rfl⟩ := Yields.mk_pure_iff.mp hrender
  rcases Yields.bind_iff.mp hrest with ⟨e, he, hwrite⟩ | ⟨_, v, -, habsolute⟩
  · obtain rfl := Except.error.inj he
    obtain ⟨e', hfails, rfl⟩ := Yields.adapt_error_iff.mp hwrite
    obtain ⟨hts, ⟨r, rfl⟩ | ⟨hzero, rfl⟩⟩ := Yields.writeText_error hfails
    · exact ⟨hts, .inl ⟨r, rfl⟩⟩
    · exact ⟨hts, .inr (.inr ⟨⟨text, mapError_eq_ok.mp htext.symm⟩, hzero, rfl⟩)⟩
  · simp [Yields.lift_iff, FileSystem.absolute] at habsolute

/-- A name that is safe is the file of the schema up to its ending. -/
theorem fileName_eq_ok {name file : String} (h : fileName name = .ok file) :
    file = name ++ ".json" := by
  rw [fileName] at h
  split at h
  · simp at h
  · exact (Except.ok.inj h).symm

/-- Writing schemas fails before anything is changed, or with a schema that is not written. -/
theorem writeSchemas_error {directory : Path} {output : OutputSettings}
    {schemas : List ConvertedSchema}
    (h : Yields (writeSchemas directory output schemas) s (.error failure) t) :
    (∃ r, failure = .error (.unwritable r)) ∨ t = s ∨ ∃ schema ∈ schemas,
      (∃ fault, Json.render output.style schema.schema = .error fault ∧ failure = .fault fault) ∨
        '\x00' ∈ schema.name.toList ∧ failure = .fault .zeroInPath := by
  rcases Yields.bind_iff.mp h with ⟨e, -, hnames⟩ | ⟨files, u, hnames, hrest⟩
  · exact .inr (.inl (Yields.mk_pure_iff.mp hnames).2)
  obtain ⟨hfiles, rfl⟩ := Yields.mk_pure_iff.mp hnames
  rcases Yields.bind_iff.mp hrest with ⟨e, he, hcreate⟩ | ⟨_, v, hcreate, hwrite⟩
  · obtain rfl := Except.error.inj he
    obtain ⟨e', hfails, rfl⟩ := Yields.adapt_error_iff.mp hcreate
    rcases Yields.ensureDirectories_error hfails with ⟨r, rfl⟩ | ⟨-, -, hts⟩
    · exact .inl ⟨r, rfl⟩
    · exact .inr (.inl hts)
  · -- All names are safe and the directory is there, so it is one of the schemas that fails.
    have hdirectory := Yields.hasZero_of_ensureDirectories (Yields.adapt_ok_iff.mp hcreate)
    obtain ⟨front, ⟨schema, file⟩, back, -, w, hsplit, -, hone⟩ := Yields.mapM_error_iff.mp hwrite
    obtain ⟨converted, hconverted, hfile⟩ := exists_mem_of_mapM hfiles.symm (schema, file)
      (by rw [hsplit]; simp)
    obtain ⟨file', hname, hpair⟩ := bind_eq_ok.mp hfile
    obtain ⟨rfl, rfl⟩ := Prod.mk.inj (Except.ok.inj hpair)
    obtain ⟨-, hrefused | hfault | ⟨-, hzero, hfault⟩⟩ := writeSchema_error hone
    · exact .inl hrefused
    · exact .inr (.inr ⟨converted, hconverted, .inl hfault⟩)
    · have hmem := (Path.hasZero_child hdirectory).mp hzero
      rw [fileName_eq_ok hname, String.toList_append, List.mem_append] at hmem
      exact .inr (.inr ⟨converted, hconverted, .inr ⟨hmem.resolve_right (by decide), hfault⟩⟩)

theorem writeOutput_error {output : OutputSettings} {schemas : List ConvertedSchema}
    (hprints : ∀ schema ∈ schemas, Printable output schema)
    (h : Yields (writeOutput request output schemas) s (.error failure) t) :
    (∃ r, failure = .error (.unwritable r)) ∨ t = s := by
  rw [writeOutput] at h
  split at h
  · rcases writeSchemas_error h with hrefused | hts | ⟨schema, hschema, hfails⟩
    · exact .inl hrefused
    · exact .inr hts
    · obtain ⟨⟨text, htext⟩, hzero⟩ := hprints schema hschema
      rcases hfails with ⟨fault, hfault, -⟩ | ⟨hmem, -⟩
      · simp [htext] at hfault
      · exact absurd hmem hzero
  · exact .inr (Yields.pure_iff.mp h).2

/-- An error that the conversion reports as its own leaves the files as they are, unless the store
refuses to take what is to be written. -/
theorem run_own_error [Loader] {cause : ConversionError}
    (h : Yields (run request : TracedT _ _ Conversion).untraced s (.error (.error cause)) t) :
    t = s ∨ ∃ folder r, given request.outputDirectory = some folder ∧ cause = .unwritable r := by
  rcases run_error_iff.mp h with ⟨-, hts⟩ | ⟨settings, d, -, ⟨-, hts⟩ | ⟨schemas, -, hwrite⟩⟩
  · exact .inl hts
  · exact .inl hts
  rw [writeOutput] at hwrite
  split at hwrite
  · next folder hfolder =>
    rcases writeSchemas_error hwrite with ⟨r, hr⟩ | hts | ⟨-, -, ⟨_, -, hfault⟩ | ⟨-, hfault⟩⟩
    · exact .inr ⟨folder, r, hfolder, Failure.error.inj hr⟩
    · exact .inl hts
    · simp at hfault
    · simp at hfault
  · exact .inl (Yields.pure_iff.mp hwrite).2

/-- **A failed conversion leaves the files as they are**, unless the store refuses, if every schema
that it converts can be printed under its name.  Whatever fails, in the settings, the document, a
reference, the mapping or a name, of whichever schema, fails before anything is written. -/
theorem run_error_unchanged [Loader]
    (h : Yields (run request : TracedT _ _ Conversion).untraced s (.error failure) t)
    (hrefused : ∀ r, failure ≠ .error (.unwritable r))
    (hprints : ∀ c, Yields (run { request with outputDirectory := none } :
        TracedT _ _ Conversion).untraced s (.ok c) s →
      ∀ schema ∈ c.schemas, Printable c.output schema) :
    t = s := by
  rw [untraced_run] at h
  rcases Yields.bind_iff.mp h with ⟨e, -, hprepare⟩ | ⟨⟨output, schemas⟩, u, hprepare, hrest⟩
  · exact quiet_prepare request _ _ _ hprepare
  -- Preparing only looks, so writing starts from the same store.
  obtain rfl := quiet_prepare request _ _ _ hprepare
  have hschemas := hprints _ (yields_run_of_prepare hprepare)
  rcases Yields.bind_iff.mp hrest with ⟨e, he, hwrite⟩ | ⟨_, v, -, hpure⟩
  · obtain rfl := Except.error.inj he
    rcases writeOutput_error hschemas hwrite with ⟨r, hr⟩ | hts
    · exact absurd hr (hrefused r)
    · exact hts
  · simp [Yields.pure_iff] at hpure

/-- A working directory that holds one document, with component schemas in the flow style. -/
def petStore (schemas : String) : Store :=
  ⟨[], [(["pets.yaml"], .file ("components: \x7bschemas: \x7b" ++ schemas ++ "\x7d\x7d").toUTF8)]⟩

/-- All schemas of the document are to be written to a new directory. -/
def petRequest : ConversionRequest := { document := "pets.yaml", outputDirectory := some "out" }

/-- The name of the second schema is not safe. -/
def slashedPets : Store :=
  petStore "Pet: \x7btype: object\x7d, Pet/Tag: \x7btype: string\x7d"

/-- The second schema has a date, for which there is no JSON form. -/
def datedPets : Store :=
  petStore "Pet: \x7btype: object\x7d, Tag: \x7bdefault: 2020-01-01\x7d"

/-- A name that is not safe is found before the schema in front of it is written. -/
theorem run_error_unchanged_slashedPets :
    ∃ t, Yields (run petRequest : TracedT _ _ Conversion).untraced slashedPets
        (.error (.error (.unsafeName "Pet/Tag"))) t ∧ t = slashedPets := by
  have hfails : Yields (run petRequest : TracedT _ _ Conversion).untraced slashedPets
      (.error (.error (.unsafeName "Pet/Tag"))) _ :=
    .of_error? (by decide +kernel)
  have hprints : ((run { petRequest with outputDirectory := none } :
        TracedT _ (StateM Store) Conversion).untraced.run.run slashedPets).run.1.toOption.all
        (fun c => decide (∀ schema ∈ c.schemas, Printable c.output schema)) = true := by
    decide +kernel
  exact ⟨_, hfails, run_error_unchanged hfails (by simp) fun c hc =>
    of_decide_eq_true (Yields.of_all hprints hc)⟩

/-- A date is found when the schema in front of it has been written. -/
theorem run_date_written :
    (datedPets.at? ["out", "Pet.json"]).isSome = false ∧
      ∃ t, Yields (run petRequest : TracedT _ _ Conversion).untraced datedPets
        (.error (.fault .noJsonForm)) t ∧ (t.at? ["out", "Pet.json"]).isSome = true := by
  have hbefore : (datedPets.at? ["out", "Pet.json"]).isSome = false := by decide +kernel
  have hfails : Yields (run petRequest : TracedT _ _ Conversion).untraced datedPets
      (.error (.fault .noJsonForm)) _ :=
    .of_error? (by decide +kernel)
  have hafter : (((run petRequest : TracedT _ (StateM Store) Conversion).untraced.run.run
      datedPets).run.2.at? ["out", "Pet.json"]).isSome = true := by
    decide +kernel
  exact ⟨hbefore, _, hfails, hafter⟩

end Conversion

end ApiSchema
