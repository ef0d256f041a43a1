/-
Failures that are no errors of a conversion.

A conversion reports what goes wrong as an error of its own.  Some failures escape: no
part of it turns them into an error, so they end the program.  `Escapes` lists them in
the order in which they are met.  A file is no text, or is one for which the loader has no
error; a number has too many digits for its name or for the message that rejects it; keys
beside a reference have no order; a path holds a zero character; a schema has no JSON text.

Whether a text is loaded is a matter of the loader.  Everything else on the list is a
property of the values: their keys, their scalars, their references.

The list is complete for documents that do not contain themselves, and each of its cases
does escape (`run_fault_iff`).  So the error channel of a conversion is the only one where
none of the cases is given.  Memory and stack are taken to be as large as the values ask
for, so running out of them is not on the list.
-/
import ApiSchema.Proofs.CommandLine.Outcome
import ApiSchema.Proofs.Document.Selection
import ApiSchema.Proofs.Files.Reading
import ApiSchema.Proofs.Json.Obstacle
import ApiSchema.Proofs.Reference.Meaning
import ApiSchema.Proofs.Reference.Stopping
import ApiSchema.Proofs.Rendering
import ApiSchema.Proofs.Schema.Rejection

namespace ApiSchema

variable {document v : Value} {f : Fault}

namespace Conversion

/-! ### Schemas -/

/-- A selected schema, with its references replaced if the settings say so. -/
def inlined (document : Value) (settings : ReferenceSettings) (v : Value) :
    Except (Failure ReferenceError) Value :=
  if settings.inline then (inline document settings.areas v).result else .ok v

theorem convertValue_eq (document : Value) (settings : ReferenceSettings) (name : String)
    (v : Value) :
    convertValue document settings name v = (do
      let schema ← (inlined document settings v).mapError (Failure.map .reference)
      let entries ← (mapLogged name schema).result
      return ⟨name, .mapping entries⟩) := rfl

/-- The conversion of a schema ends the program. -/
inductive SchemaFault (document : Value) (settings : ReferenceSettings) (name : String) :
    Fault → Prop
  /-- Its references are to be replaced, and that stops at keys without order. -/
  | keys {v : Value}
    (resolves : resolve document settings.areas (.reference (Document.schemaReference name)) =
      .ok v)
    (inlines : settings.inline = true) (stops : Stops document settings.areas [] v) :
    SchemaFault document settings name .unorderedKeys
  /-- It is rejected for an array of types, and an integer in there has too many digits for the
  message. -/
  | rejection {v schema : Value} {types : List Value}
    (resolves : resolve document settings.areas (.reference (Document.schemaReference name)) =
      .ok v)
    (inlined_eq : inlined document settings v = .ok schema)
    (refused : FirstRefused schema (.typeArray types)) (long : Value.itemsWritable types = false) :
    SchemaFault document settings name .tooManyDigits

theorem inlined_fault_iff {settings : ReferenceSettings} :
    inlined document settings v = .error (.fault f) ↔
      settings.inline = true ∧ f = .unorderedKeys ∧ Stops document settings.areas [] v := by
  rw [inlined]
  cases settings.inline with
  | false => simp
  | true => simp [inline_fault_iff]

/-- Only a rejection that quotes types can be too long to be written. -/
theorem exists_long_rejection_iff {schema : Value} :
    (∃ cause, schema.toDraft4 = .error cause ∧ cause.isWritable = false) ↔
      ∃ types, FirstRefused schema (.typeArray types) ∧ Value.itemsWritable types = false := by
  have hmapping {cause : Rejection} (h : FirstRefused schema cause) : schema.isMapping = true := by
    obtain ⟨before, node, after, hnodes, -⟩ := h
    by_contra hatom
    rw [Value.nodes_atom (Bool.not_eq_true _ ▸ hatom)] at hnodes
    simp at hnodes
  constructor
  · rintro ⟨cause, hrejects, hlong⟩
    cases cause with
    | typeArray types =>
      cases hs : schema.isMapping with
      | true => exact ⟨types, (toDraft4_eq_error_iff hs).mp hrejects, hlong⟩
      | false => simp [toDraft4_of_not_isMapping hs] at hrejects
    | _ => simp [Rejection.isWritable] at hlong
  · rintro ⟨types, hrefused, hlong⟩
    exact ⟨_, (toDraft4_eq_error_iff (hmapping hrefused)).mpr hrefused, hlong⟩

theorem mapLogged_fault_iff {name : String} {schema : Value} :
    (mapLogged name schema).result = .error (.fault f) ↔
      (∃ types, FirstRefused schema (.typeArray types) ∧ Value.itemsWritable types = false) ∧
        f = .tooManyDigits := by
  rw [result_mapLogged, mapError_eq_error, ← exists_long_rejection_iff, ← exists_and_right]
  refine exists_congr fun cause => ?_
  rw [and_assoc]
  refine and_congr_right fun _ => ?_
  rw [raised]
  cases cause.isWritable <;> simp [eq_comm]

theorem result_convertSchema_of_error {settings : ReferenceSettings} {name : String}
    {cause : ReferenceError}
    (h : resolve document settings.areas (.reference (Document.schemaReference name)) =
      .error cause) :
    (convertSchema document settings name).result = .error (.error (.reference cause)) := by
  rw [resolve_reference] at h
  simp only [convertSchema, resolveLogged, h]
  rfl

theorem convertSchema_fault_iff {settings : ReferenceSettings} {name : String} :
    (convertSchema document settings name).result = .error (.fault f) ↔
      SchemaFault document settings name f := by
  constructor
  · intro h
    cases hresolve :
        resolve document settings.areas (.reference (Document.schemaReference name)) with
    | error cause => simp [result_convertSchema_of_error hresolve] at h
    | ok v =>
      rw [result_convertSchema hresolve, convertValue_eq] at h
      rcases bind_eq_error.mp h with hinline | ⟨schema, hschema, hrest⟩
      · obtain ⟨e, hfails, hmap⟩ := mapError_eq_error.mp hinline
        obtain rfl := map_eq_fault.mp hmap
        obtain ⟨hinlines, rfl, hstops⟩ := inlined_fault_iff.mp hfails
        exact .keys hresolve hinlines hstops
      · rcases bind_eq_error.mp hrest with hmap | ⟨_, -, hdone⟩
        · obtain ⟨⟨types, hrefused, hlong⟩, rfl⟩ := mapLogged_fault_iff.mp hmap
          exact .rejection hresolve (mapError_eq_ok.mp hschema) hrefused hlong
        · simp [pure, Except.pure] at hdone
  · rintro (⟨hresolve, hinlines, hstops⟩ | ⟨hresolve, hinlined, hrefused, hlong⟩)
    · rw [result_convertSchema hresolve, convertValue_eq,
        inlined_fault_iff.mpr ⟨hinlines, rfl, hstops⟩]
      rfl
    · have hmapped : (mapLogged name _).result = _ :=
        mapLogged_fault_iff.mpr ⟨⟨_, hrefused, hlong⟩, rfl⟩
      rw [result_convertSchema hresolve, convertValue_eq, hinlined]
      exact bind_eq_error.mpr (.inr ⟨_, rfl, bind_eq_error.mpr (.inl hmapped)⟩)

/-! ### Files -/

variable {request : ConversionRequest} {s t : Store} {settings : Settings} {d : Document}
  {output : OutputSettings} {schemas : List ConvertedSchema}

theorem loadSettings_fault_iff [Loader] :
    Yields (loadSettings request) s (.error (.fault f)) t ↔
      ∃ path, given request.settings = some path ∧ FileFault s (Path.ofText path) f ∧ t = s := by
  rw [loadSettings]
  cases given request.settings with
  | none => simp [Yields.pure_iff]
  | some path =>
    simp only [Option.some.injEq, exists_eq_left', Yields.adapt_fault_iff, Settings.load,
      Yields.bind_iff]
    constructor
    · rintro (⟨e, he, hread⟩ | ⟨value, u, -, hvalue⟩)
      · obtain rfl := Except.error.inj he
        exact Yields.readFile_fault_iff.mp (Yields.adapt_fault_iff.mp hread)
      · obtain ⟨cause, -, hcause⟩ := mapError_eq_error.mp (Yields.mk_pure_iff.mp hvalue).1.symm
        simp at hcause
    · intro h
      exact .inl ⟨_, rfl, Yields.adapt_fault_iff.mpr (Yields.readFile_fault_iff.mpr h)⟩

/-- The component schemas of a document have a key whose digits cannot be written. -/
def NameFault [Loader] (s : Store) (p : Path) (f : Fault) : Prop :=
  ∃ root, Yields (Loader.readFile p) s (.ok (.mapping root)) s ∧
    (∃ key ∈ Document.schemaKeys root, key.isWritable = false) ∧ f = .tooManyDigits

theorem all_isWritable_eq_false {root : Entries} :
    (Document.schemaKeys root).all Scalar.isWritable = false ↔
      ∃ key ∈ Document.schemaKeys root, key.isWritable = false := by
  simp only [List.all_eq_false, Bool.not_eq_true]

theorem load_fault_iff [Loader] {path : String} :
    Yields (Document.load path).untraced s (.error (.fault f)) t ↔
      (FileFault s (Path.ofText path) f ∨ NameFault s (Path.ofText path) f) ∧ t = s := by
  rw [Document.load, TracedT.untraced_bind, TracedT.untraced_ofExceptT, Yields.bind_iff]
  constructor
  · rintro (⟨e, he, hread⟩ | ⟨value, u, hread, hrest⟩)
    · obtain rfl := Except.error.inj he
      obtain ⟨hfile, rfl⟩ := Yields.readFile_fault_iff.mp (Yields.adapt_fault_iff.mp hread)
      exact ⟨.inl hfile, rfl⟩
    · obtain rfl := Quiet.adapt (.readFile _) _ _ _ _ hread
      cases value with
      | mapping root =>
        dsimp only at hrest
        rw [TracedT.untraced_bind, TracedT.untraced_ofExceptT, FileSystem.absolute,
          Yields.lift_bind_iff] at hrest
        split at hrest
        · exact absurd (Yields.mk_pure_iff.mp hrest).1 (by simp)
        · next hlong =>
          obtain ⟨hf, rfl⟩ := Yields.mk_pure_iff.mp hrest
          rw [Bool.not_eq_true, all_isWritable_eq_false] at hlong
          refine ⟨.inr ⟨root, Yields.adapt_ok_iff.mp hread, hlong, ?_⟩, rfl⟩
          simpa using hf
      | _ => exact absurd (Yields.mk_pure_iff.mp hrest).1 (by simp)
  · rintro ⟨hfile | ⟨root, hread, hlong, rfl⟩, rfl⟩
    · have hread := Yields.readFile_fault_iff.mpr ⟨hfile, rfl⟩
      exact .inl ⟨_, rfl, Yields.adapt_fault_iff.mpr hread⟩
    · refine .inr ⟨_, _, Yields.adapt_ok_iff.mpr hread, ?_⟩
      dsimp only
      rw [TracedT.untraced_bind, TracedT.untraced_ofExceptT, FileSystem.absolute,
        Yields.lift_bind_iff, all_isWritable_eq_false.mpr hlong]
      exact Yields.mk_pure_iff.mpr ⟨rfl, rfl⟩

theorem convertSchemas_fault_iff :
    convertSchemas request settings d = .error (.fault f) ↔
      ∃ before name after, listed request d = before ++ name :: after ∧
        (∀ other ∈ before, ∃ c,
          (convertSchema d.value settings.references other).result = .ok c) ∧
        SchemaFault d.value settings.references name f := by
  simp only [← convertSchema_fault_iff, ← mapM_eq_error_iff]
  rw [convertSchemas, selectNames_eq]
  split
  · next hempty =>
    rw [List.isEmpty_iff.mp hempty]
    constructor
    · intro h
      simp [bind, Except.bind] at h
    · intro h
      simp [pure, Except.pure] at h
  · rfl

/-! ### Writing -/

variable {directory : Path} {paths : List String} {schema : ConvertedSchema}

theorem fileName_ne_fault {name : String} : fileName name ≠ .error (.fault f) := by
  rw [fileName]
  split <;> simp

/-- The names of the schemas are all names of files. -/
def Safe (schemas : List ConvertedSchema) : Prop :=
  ∀ schema ∈ schemas, ∃ file, fileName schema.name = .ok file

theorem safe_append {front back : List ConvertedSchema} (h : Safe (front ++ back)) : Safe front :=
  fun schema hschema => h schema (List.mem_append_left _ hschema)

/-- A name that is not safe is an error of the conversion, and it is found first. -/
theorem safe_of_writeSchemas_fault
    (h : Yields (writeSchemas directory output schemas) s (.error (.fault f)) t) :
    Safe schemas := by
  rcases Yields.bind_iff.mp h with ⟨e, he, hnames⟩ | ⟨files, u, hnames, -⟩
  · obtain rfl := Except.error.inj he
    obtain ⟨schema, -, hname⟩ := exists_error_of_mapM (Yields.mk_pure_iff.mp hnames).1.symm
    rcases bind_eq_error.mp hname with hfile | ⟨_, -, hpair⟩
    · exact absurd hfile fileName_ne_fault
    · simp [pure, Except.pure] at hpair
  · intro schema hschema
    obtain ⟨pair, hpair⟩ := exists_ok_of_mapM (Yields.mk_pure_iff.mp hnames).1.symm schema hschema
    obtain ⟨file, hfile, -⟩ := bind_eq_ok.mp hpair
    exact ⟨file, hfile⟩

/-- Schemas with safe names are written one after the other. -/
theorem writeSchemas_of_safe (h : Safe schemas) :
    (writeSchemas directory output schemas : ExceptT _ (StateM Store) _) = (do
      writing (FileSystem.ensureDirectories directory)
      schemas.mapM fun s => writeSchema directory output s.schema (s.name ++ ".json")) := by
  have hfiles : schemas.mapM (fun s => do return (s.schema, ← fileName s.name)) =
      .ok (schemas.map fun s => (s.schema, s.name ++ ".json")) := by
    refine mapM_eq_ok_map fun s hs => ?_
    obtain ⟨file, hfile⟩ := h s hs
    rw [hfile, fileName_eq_ok hfile]
    rfl
  have hpure (files : List (Value × String)) :
      (ExceptT.mk (pure (.ok files)) : ExceptT (Failure ConversionError) (StateM Store) _) =
        pure files := rfl
  rw [writeSchemas, hfiles, hpure, pure_bind]
  simp only [List.mapM_map, Function.comp_def]

/-- Writing a schema ends the program if it has no text, or for a zero character in its path. -/
theorem writeSchema_fault_iff {value : Value} {file : String} :
    Yields (writeSchema directory output value file) s (.error (.fault f)) t ↔ t = s ∧
      (Json.render output.style value = .error f ∨
        (∃ text, Json.render output.style value = .ok text) ∧
          (directory.child file).hasZero = true ∧ f = .zeroInPath) := by
  constructor
  · intro h
    obtain ⟨rfl, ⟨r, hr⟩ | ⟨fault, hrender, hfault⟩ | ⟨htext, hzero, hfault⟩⟩ :=
      writeSchema_error h
    · simp at hr
    · rw [Failure.fault.inj hfault]
      exact ⟨rfl, .inl hrender⟩
    · exact ⟨rfl, .inr ⟨htext, hzero, Failure.fault.inj hfault⟩⟩
  · rintro ⟨rfl, hrender | ⟨⟨text, htext⟩, hzero, rfl⟩⟩
    · refine Yields.bind_of_error (Yields.mk_pure_iff.mpr ⟨?_, rfl⟩)
      rw [hrender]
      rfl
    · have hwrite : Yields (writing (FileSystem.writeText (directory.child file) (text ++ "\n"))) t
          (.error (.fault .zeroInPath)) t :=
        Yields.adapt_fault_iff.mpr (Yields.writeText_iff.mpr (.inl ⟨hzero, rfl, rfl⟩))
      refine Yields.bind_of_ok (Yields.mk_pure_iff.mpr ⟨?_, rfl⟩) hwrite.bind_of_error
      rw [htext]
      rfl

theorem hasZero_child_json (h : directory.hasZero = false) {name : String} :
    (directory.child (name ++ ".json")).hasZero = true ↔ '\x00' ∈ name.toList := by
  rw [Path.hasZero_child h, String.toList_append, List.mem_append, or_iff_left (by decide)]

/-- The value has no text in this output. -/
inductive TextFault (output : OutputSettings) (v : Value) : Fault → Prop
  /-- The indentation is wider than the writer can count. -/
  | indent (wide : Json.countableIndent < output.indent) : TextFault output v .hugeIndent
  /-- There is an obstacle in the value. -/
  | value {f : Fault} (obstacle : Json.Obstacle output.sortKeys v f) : TextFault output v f

theorem textFault_of_render (htree : v.IsTree) (h : Json.render output.style v = .error f) :
    TextFault output v f := by
  rw [Json.render] at h
  split at h
  · next hwide =>
    obtain rfl := Except.error.inj h
    exact .indent hwide
  · exact .value (Json.obstacle_of_write htree h)

theorem exists_render_error (h : TextFault output v f) :
    ∃ g, Json.render output.style v = .error g := by
  rw [Json.render]
  split
  · exact ⟨_, rfl⟩
  · next hnarrow =>
    cases h with
    | indent wide => exact absurd wide hnarrow
    | value obstacle => exact Json.exists_error_of_obstacle obstacle 0

/-- The schema cannot be written to any directory: it has no text, or there is a zero character in
its name. -/
inductive PrintFault (output : OutputSettings) (schema : ConvertedSchema) : Fault → Prop
  | text {f : Fault} (fails : TextFault output schema.schema f) : PrintFault output schema f
  | name (zero : '\x00' ∈ schema.name.toList) : PrintFault output schema .zeroInPath

theorem printFault_of_writeSchema (htree : schema.schema.IsTree) (hzero : directory.hasZero = false)
    (h : Yields (writeSchema directory output schema.schema (schema.name ++ ".json")) s
      (.error (.fault f)) t) : t = s ∧ PrintFault output schema f := by
  obtain ⟨rfl, hrender | ⟨-, hname, rfl⟩⟩ := writeSchema_fault_iff.mp h
  · exact ⟨rfl, .text (textFault_of_render htree hrender)⟩
  · exact ⟨rfl, .name ((hasZero_child_json hzero).mp hname)⟩

theorem writeSchema_of_printFault (hzero : directory.hasZero = false)
    (h : PrintFault output schema f) :
    ∃ g, Yields (writeSchema directory output schema.schema (schema.name ++ ".json")) s
      (.error (.fault g)) s := by
  cases hrender : Json.render output.style schema.schema with
  | error g => exact ⟨g, writeSchema_fault_iff.mpr ⟨rfl, .inl hrender⟩⟩
  | ok text =>
    cases h with
    | text fails =>
      obtain ⟨g, hg⟩ := exists_render_error fails
      simp [hrender] at hg
    | name zero =>
      have hname := (hasZero_child_json hzero).mpr zero
      exact ⟨_, writeSchema_fault_iff.mpr ⟨rfl, .inr ⟨⟨text, hrender⟩, hname, rfl⟩⟩⟩

/-- **Writing schemas ends the program** for a zero character in the path of the directory, or when
the directory is there and some schemas are written. -/
theorem cases_of_writeSchemas (htree : ∀ schema ∈ schemas, schema.schema.IsTree)
    (h : Yields (writeSchemas directory output schemas) s (.error (.fault f)) t) :
    Safe schemas ∧
      (directory.hasZero = true ∧ f = .zeroInPath ∧ t = s ∨
        ∃ front schema back paths, schemas = front ++ schema :: back ∧
          Yields (writeSchemas directory output front) s (.ok paths) t ∧
          PrintFault output schema f) := by
  have hsafe := safe_of_writeSchemas_fault h
  refine ⟨hsafe, ?_⟩
  rw [writeSchemas_of_safe hsafe] at h
  rcases Yields.bind_iff.mp h with ⟨e, he, hcreate⟩ | ⟨_, u, hcreate, hwrite⟩
  · obtain rfl := Except.error.inj he
    rcases Yields.ensureDirectories_error (Yields.adapt_fault_iff.mp hcreate) with
      ⟨r, hr⟩ | ⟨hzero, hf, hts⟩
    · simp at hr
    · exact .inl ⟨hzero, Failure.fault.inj hf, hts⟩
  · have hdirectory := Yields.hasZero_of_ensureDirectories (Yields.adapt_ok_iff.mp hcreate)
    obtain ⟨front, schema, back, paths, w, rfl, hfront, hone⟩ := Yields.mapM_error_iff.mp hwrite
    obtain ⟨rfl, hfails⟩ := printFault_of_writeSchema (htree schema (by simp)) hdirectory hone
    refine .inr ⟨front, schema, back, paths, rfl, ?_, hfails⟩
    rw [writeSchemas_of_safe (safe_append hsafe)]
    exact hcreate.bind_of_ok hfront

theorem writeSchemas_of_hasZero (hsafe : Safe schemas) (hzero : directory.hasZero = true) :
    Yields (writeSchemas directory output schemas) s (.error (.fault .zeroInPath)) s := by
  rw [writeSchemas_of_safe hsafe]
  refine Yields.bind_of_error (Yields.adapt_fault_iff.mpr ?_)
  exact Yields.checkZero_bind_iff.mpr (.inl ⟨hzero, rfl, rfl⟩)

theorem writeSchemas_of_printFault {front back : List ConvertedSchema}
    (hsafe : Safe (front ++ schema :: back))
    (hfront : Yields (writeSchemas directory output front) s (.ok paths) t)
    (h : PrintFault output schema f) :
    ∃ g, Yields (writeSchemas directory output (front ++ schema :: back)) s
      (.error (.fault g)) t := by
  rw [writeSchemas_of_safe (safe_append hsafe)] at hfront
  obtain ⟨_, u, hcreate, hfront⟩ := Yields.exists_of_bind_ok hfront
  have hdirectory := Yields.hasZero_of_ensureDirectories (Yields.adapt_ok_iff.mp hcreate)
  obtain ⟨g, hg⟩ := writeSchema_of_printFault (s := t) hdirectory h
  rw [writeSchemas_of_safe hsafe]
  exact ⟨g, hcreate.bind_of_ok (Yields.mapM_error_iff.mpr
    ⟨front, schema, back, paths, t, rfl, hfront, hg⟩)⟩

/-- The schemas of a document that is a tree are trees. -/
theorem isTree_of_convertSchemas (hd : d.value.IsTree)
    (h : convertSchemas request settings d = .ok schemas) :
    ∀ schema ∈ schemas, schema.schema.IsTree := by
  intro schema hschema
  obtain ⟨names, -, hnames⟩ := bind_eq_ok.mp h
  obtain ⟨name, -, hname⟩ := exists_mem_of_mapM hnames schema hschema
  obtain ⟨target, source, m, htarget, hsource, hm, rfl⟩ := convertSchema_eq_ok hname
  have htargetTree : target.IsTree := Value.hereditary_isTree.resolve hd htarget
  refine Value.isTree_toDraft4 hm ?_
  split at hsource
  · exact Value.isTree_of_inlines (inline_eq_ok_iff.mp hsource) hd htargetTree
  · exact hsource ▸ htargetTree

/-- So is what is printed for them. -/
theorem isTree_schemasValue (h : ∀ schema ∈ schemas, schema.schema.IsTree) :
    (schemasValue schemas).IsTree := by
  by_cases hlength : schemas.length = 1
  · obtain ⟨one, rfl⟩ := List.length_eq_one_iff.mp hlength
    exact h one List.mem_cons_self
  · rw [schemasValue_of_length_ne hlength]
    refine Value.isTree_mapping_iff.mpr fun e he => ⟨?_, ?_⟩
    · have hnamed :
          Entries.Named (Entries.ofPairs (schemas.map fun s => (.str s.name, s.schema))) :=
        .ofPairs (List.forall_mem_map.mpr fun _ _ => rfl)
      rw [Scalar.eq_str_name (hnamed.texts e.1 (List.mem_map_of_mem he))]
      rfl
    · obtain ⟨p, hp, hvalue⟩ := Entries.mem_ofPairs he
      obtain ⟨schema, hschema, rfl⟩ := List.mem_map.mp hp
      rw [hvalue]
      exact h schema hschema

/-! ### The whole conversion -/

/-- A conversion ends the program for this fault, with this store. -/
inductive Escapes [Loader] (request : ConversionRequest) (s : Store) : Fault → Store → Prop
  /-- The file of the settings ends the program. -/
  | settings {f : Fault} {path : String} (path_eq : given request.settings = some path)
    (file : FileFault s (Path.ofText path) f) : Escapes request s f s
  /-- The file of the document does. -/
  | document {f : Fault} {settings : Settings}
    (settings_loaded : Yields (loadSettings request) s (.ok settings) s)
    (file : FileFault s (Path.ofText request.document) f) : Escapes request s f s
  /-- The component schemas of the document cannot be listed. -/
  | names {f : Fault} {settings : Settings}
    (settings_loaded : Yields (loadSettings request) s (.ok settings) s)
    (names : NameFault s (Path.ofText request.document) f) : Escapes request s f s
  /-- A schema is reached whose conversion ends the program. -/
  | schema {f : Fault} {settings : Settings} {d : Document} {before after : List String}
    {name : String} (loads : Loads request s settings d)
    (listed_eq : listed request d = before ++ name :: after)
    (converted : ∀ other ∈ before, ∃ c,
      (convertSchema d.value settings.references other).result = .ok c)
    (fails : SchemaFault d.value settings.references name f) : Escapes request s f s
  /-- Files are to be written to a directory with a zero character in its path. -/
  | directory {settings : Settings} {d : Document} {schemas : List ConvertedSchema}
    {folder : String} (loads : Loads request s settings d)
    (converted : convertSchemas request settings d = .ok schemas)
    (folder_eq : given request.outputDirectory = some folder) (safe : Safe schemas)
    (zero : '\x00' ∈ folder.toList) : Escapes request s .zeroInPath s
  /-- Files are to be written, and a schema is reached that cannot be. -/
  | file {f : Fault} {t : Store} {settings : Settings} {d : Document}
    {front back : List ConvertedSchema} {schema : ConvertedSchema} {folder : String}
    {paths : List String}
    (loads : Loads request s settings d)
    (converted : convertSchemas request settings d = .ok (front ++ schema :: back))
    (folder_eq : given request.outputDirectory = some folder)
    (safe : Safe (front ++ schema :: back))
    (written : Yields (writeSchemas (Path.ofText folder) settings.output front) s (.ok paths) t)
    (fails : PrintFault settings.output schema f) : Escapes request s f t

theorem notLoaded_fault_iff [Loader] :
    NotLoaded request s (.fault f) ↔
      (∃ path, given request.settings = some path ∧ FileFault s (Path.ofText path) f) ∨
        ∃ settings, Yields (loadSettings request) s (.ok settings) s ∧
          (FileFault s (Path.ofText request.document) f ∨
            NameFault s (Path.ofText request.document) f) := by
  constructor
  · rintro (hfails | ⟨hsettings, hfails⟩)
    · obtain ⟨path, hpath, hfile, -⟩ := loadSettings_fault_iff.mp hfails
      exact .inl ⟨path, hpath, hfile⟩
    · exact .inr ⟨_, hsettings, (load_fault_iff.mp (Yields.adapt_fault_iff.mp hfails)).1⟩
  · rintro (⟨path, hpath, hfile⟩ | ⟨settings, hsettings, hfails⟩)
    · exact .settings (loadSettings_fault_iff.mpr ⟨path, hpath, hfile, rfl⟩)
    · exact .document hsettings (Yields.adapt_fault_iff.mpr (load_fault_iff.mpr ⟨hfails, rfl⟩))

/-- The document of the request does not contain itself, whatever file there is. -/
def ReadsTree [Loader] (request : ConversionRequest) (s : Store) : Prop :=
  ∀ v, Yields (Loader.readFile (Path.ofText request.document)) s (.ok v) s → v.IsTree

theorem escapes_of_run [Loader] (htree : ReadsTree request s)
    (h : Yields (run request : TracedT _ _ Conversion).untraced s (.error (.fault f)) t) :
    Escapes request s f t := by
  rcases run_error_iff.mp h with ⟨hnot, rfl⟩ | ⟨settings, d, hloads, hrest⟩
  · rcases notLoaded_fault_iff.mp hnot with ⟨path, hpath, hfile⟩ | ⟨settings, hsettings, hfails⟩
    · exact .settings hpath hfile
    · rcases hfails with hfile | hnames
      · exact .document hsettings hfile
      · exact .names hsettings hnames
  rcases hrest with ⟨hfails, rfl⟩ | ⟨schemas, hconverted, hwrite⟩
  · obtain ⟨before, name, after, hlisted, hbefore, hname⟩ := convertSchemas_fault_iff.mp hfails
    exact .schema hloads hlisted hbefore hname
  rw [writeOutput] at hwrite
  split at hwrite
  · next folder hfolder =>
    have htrees := isTree_of_convertSchemas (htree _ hloads.read_document) hconverted
    obtain ⟨hsafe, ⟨hzero, rfl, rfl⟩ | ⟨front, schema, back, paths, rfl, hwritten, hfails⟩⟩ :=
      cases_of_writeSchemas htrees hwrite
    · exact .directory hloads hconverted hfolder hsafe (Path.hasZero_ofText.mp hzero)
    · exact .file hloads hconverted hfolder hsafe hwritten hfails
  · simp [Yields.pure_iff] at hwrite

theorem run_of_escapes [Loader] (h : Escapes request s f t) :
    ∃ g, Yields (run request : TracedT _ _ Conversion).untraced s (.error (.fault g)) t := by
  simp only [run_error_iff]
  cases h with
  | settings path_eq file =>
    exact ⟨_, .inl ⟨notLoaded_fault_iff.mpr (.inl ⟨_, path_eq, file⟩), rfl⟩⟩
  | document settings_loaded file =>
    exact ⟨_, .inl ⟨notLoaded_fault_iff.mpr (.inr ⟨_, settings_loaded, .inl file⟩), rfl⟩⟩
  | names settings_loaded names =>
    exact ⟨_, .inl ⟨notLoaded_fault_iff.mpr (.inr ⟨_, settings_loaded, .inr names⟩), rfl⟩⟩
  | schema loads listed_eq converted fails =>
    have hfails := convertSchemas_fault_iff.mpr ⟨_, _, _, listed_eq, converted, fails⟩
    exact ⟨_, .inr ⟨_, _, loads, .inl ⟨hfails, rfl⟩⟩⟩
  | directory loads converted folder_eq safe zero =>
    refine ⟨.zeroInPath, .inr ⟨_, _, loads, .inr ⟨_, converted, ?_⟩⟩⟩
    rw [writeOutput, folder_eq]
    exact writeSchemas_of_hasZero safe (Path.hasZero_ofText.mpr zero)
  | file loads converted folder_eq safe written fails =>
    obtain ⟨g, hg⟩ := writeSchemas_of_printFault safe written fails
    refine ⟨g, .inr ⟨_, _, loads, .inr ⟨_, converted, ?_⟩⟩⟩
    rw [writeOutput, folder_eq]
    exact hg

/-! ### The program -/

theorem conversionText_eq_error {c : Conversion} :
    CommandLine.conversionText c = .error f ↔ c.outputPaths = [] ∧ c.text = .error f := by
  rw [CommandLine.conversionText]
  cases hpaths : c.outputPaths with
  | nil => cases htext : c.text <;> simp [Except.map]
  | cons path paths => simp

/-- A conversion ends in one of three ways. -/
theorem yields_run_cases [Loader] (request : ConversionRequest) (s : Store) :
    (∃ c t, Yields (run request : TracedT _ _ Conversion).untraced s (.ok c) t) ∨
      (∃ cause t, Yields (run request : TracedT _ _ Conversion).untraced s
        (.error (.error cause)) t) ∨
      ∃ f t, Yields (run request : TracedT _ _ Conversion).untraced s (.error (.fault f)) t := by
  obtain ⟨(cause | f) | c, t, hruns⟩ :=
    Yields.exists_yields (run request : TracedT _ _ Conversion).untraced s
  · exact .inr (.inl ⟨cause, t, hruns⟩)
  · exact .inr (.inr ⟨f, t, hruns⟩)
  · exact .inl ⟨c, t, hruns⟩

/-- The schemas of a conversion that succeeds are to be printed, and have no text. -/
def Unprintable [Loader] (request : ConversionRequest) (s : Store) (f : Fault) (t : Store) : Prop :=
  ∃ c, Yields (run request : TracedT _ _ Conversion).untraced s (.ok c) t ∧
    c.outputPaths = [] ∧ TextFault c.output (schemasValue c.schemas) f

theorem command_fault_iff [Loader] {args : List String} {verbose : Bool}
    (hreads : CommandLine.readArguments args = .ok (.run verbose (.convert request))) :
    ((CommandLine.run args : StateM Store _).run s).run = (.error f, t) ↔
      Yields (run request : TracedT _ _ Conversion).untraced s (.error (.fault f)) t ∨
      ∃ c, Yields (run request : TracedT _ _ Conversion).untraced s (.ok c) t ∧
        c.outputPaths = [] ∧ c.text = .error f := by
  rw [CommandLine.run_eq_error_iff hreads, CommandLine.yields_perform_convert_iff]
  simp only [eq_comm (a := Except.error (Failure.fault f)), Except.error.injEq, map_eq_fault,
    mapError_eq_error, Failure.fault.injEq, exists_eq_right, conversionText_eq_error]

/-- What is printed is a tree if the document is one. -/
theorem isTree_of_run [Loader] {c : Conversion} (htree : ReadsTree request s)
    (h : Yields (run request : TracedT _ _ Conversion).untraced s (.ok c) t) :
    (schemasValue c.schemas).IsTree := by
  obtain ⟨settings, d, hloads, hconverted, -, -⟩ := run_ok_iff.mp h
  exact isTree_schemasValue (isTree_of_convertSchemas (htree _ hloads.read_document) hconverted)

/-- **A conversion succeeds or fails by an error of its own unless it is given something that
escapes**, and then it ends the program.  The command `convert` exits with 0 or 1 unless its
conversion is given something that escapes, or the schemas that it is to print have no text. -/
theorem run_fault_iff [Loader] (request : ConversionRequest) (s : Store)
    (htree : ReadsTree request s) :
    (((∃ c t, Yields (run request : TracedT _ _ Conversion).untraced s (.ok c) t) ∨
        ∃ cause t, Yields (run request : TracedT _ _ Conversion).untraced s
          (.error (.error cause)) t) ↔
      ∀ f t, ¬ Escapes request s f t) ∧
    (∀ f t, Yields (run request : TracedT _ _ Conversion).untraced s (.error (.fault f)) t →
      Escapes request s f t) ∧
    (∀ f t, Escapes request s f t →
      ∃ g, Yields (run request : TracedT _ _ Conversion).untraced s (.error (.fault g)) t) ∧
    ∀ args verbose, CommandLine.readArguments args = .ok (.run verbose (.convert request)) →
      (∀ outcome t, ((CommandLine.run args : StateM Store _).run s).run = (.ok outcome, t) →
        outcome.exit = 0 ∨ outcome.exit = 1) ∧
      (∀ f t, ((CommandLine.run args : StateM Store _).run s).run = (.error f, t) →
        Escapes request s f t ∨ Unprintable request s f t) ∧
      ∀ f t, Escapes request s f t ∨ Unprintable request s f t →
        ∃ g, ((CommandLine.run args : StateM Store _).run s).run = (.error g, t) := by
  refine ⟨?_, fun _ _ => escapes_of_run htree, fun _ _ => run_of_escapes,
    fun args verbose hreads => ⟨fun outcome t hrun => ?_, fun f t hrun => ?_, fun f t h => ?_⟩⟩
  · constructor
    · rintro (⟨c, u, hc⟩ | ⟨cause, u, hcause⟩) f t hescapes
      · obtain ⟨g, hg⟩ := run_of_escapes hescapes
        exact absurd (hc.unique hg).1 (by simp)
      · obtain ⟨g, hg⟩ := run_of_escapes hescapes
        exact absurd (hcause.unique hg).1 (by simp)
    · intro hnone
      rcases yields_run_cases request s with hok | herror | ⟨f, t, hfault⟩
      · exact .inl hok
      · exact .inr herror
      · exact absurd (escapes_of_run htree hfault) (hnone f t)
  · cases CommandLine.reports_of_run hrun with
    | told reads tells => exact absurd (Except.ok.inj (reads.symm.trans hreads)) (tells _ _)
    | misused reads => simp [reads] at hreads
    | done => exact .inl rfl
    | failed => exact .inr rfl
  · rcases (command_fault_iff hreads).mp hrun with hfault | ⟨c, hc, hpaths, htext⟩
    · exact .inl (escapes_of_run htree hfault)
    · exact .inr ⟨c, hc, hpaths, textFault_of_render (isTree_of_run htree hc) htext⟩
  · simp only [command_fault_iff hreads]
    rcases h with hescapes | ⟨c, hc, hpaths, htext⟩
    · obtain ⟨g, hg⟩ := run_of_escapes hescapes
      exact ⟨g, .inl hg⟩
    · obtain ⟨g, hg⟩ := exists_render_error htext
      exact ⟨g, .inr ⟨c, hc, hpaths, hg⟩⟩

/-- A document is to be converted. -/
def plainArgs : List String := ["convert", "--document", "d.yaml"]

/-- What these arguments ask for. -/
def plainRequest : ConversionRequest := { document := "d.yaml" }

/-- A byte that no text has stands where the document is looked for. -/
def undecoded : Store := ⟨[], [(["d.yaml"], .file ⟨#[0xff]⟩)]⟩

/-- The byte escapes, and the program does not end by itself. -/
theorem run_fault_undecoded :
    CommandLine.readArguments plainArgs = .ok (.run false (.convert plainRequest)) ∧
      ReadsTree plainRequest undecoded ∧ Escapes plainRequest undecoded .notUtf8 undecoded ∧
      ∃ g, ((CommandLine.run plainArgs : StateM Store _).run undecoded).run =
        (.error g, undecoded) := by
  have hreads : CommandLine.readArguments plainArgs = .ok (.run false (.convert plainRequest)) := by
    decide +kernel
  have hsettings : Yields (loadSettings plainRequest) undecoded (.ok {}) undecoded :=
    Yields.pure_iff.mpr ⟨rfl, rfl⟩
  have hfile : FileFault undecoded (Path.ofText "d.yaml") .notUtf8 :=
    ⟨by decide +kernel, ⟨#[0xff]⟩, rfl, .inl ⟨by decide +kernel, rfl⟩⟩
  have hescapes : Escapes plainRequest undecoded .notUtf8 undecoded := .document hsettings hfile
  have htree : ReadsTree plainRequest undecoded := fun _ hread =>
    absurd (hread.unique (Yields.readFile_fault_iff.mpr ⟨hfile, rfl⟩)).1 (by simp)
  obtain ⟨-, -, -, hcommand⟩ := run_fault_iff plainRequest undecoded htree
  exact ⟨hreads, htree, hescapes, (hcommand _ _ hreads).2.2 _ _ (.inl hescapes)⟩

/-- There is a conversion that neither succeeds nor fails by an error of its own. -/
theorem run_undecoded_escapes :
    ¬ ∀ request s, (∃ c t, Yields (run request : TracedT _ _ Conversion).untraced s (.ok c) t) ∨
      ∃ cause t, Yields (run request : TracedT _ _ Conversion).untraced s
        (.error (.error cause)) t := by
  intro h
  have hfails : Yields (run plainRequest : TracedT _ _ Conversion).untraced undecoded
      (.error (.fault .notUtf8)) _ :=
    .of_error? (by decide +kernel)
  rcases h plainRequest undecoded with ⟨c, t, hc⟩ | ⟨cause, t, hcause⟩
  · exact absurd (hfails.unique hc).1 (by simp)
  · exact absurd (hfails.unique hcause).1 (by simp)

end Conversion

end ApiSchema
