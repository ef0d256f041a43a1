/-
What a conversion writes.

A conversion into a directory that succeeds has created the directory where there was
none, and in it one file for each schema.  It has changed nothing else, wherever the
directory is and whatever the schemas are called: a name that is accepted is the name
of a single file, so the file stands in the directory itself, and different names are
names of different files.

A name may be asked for twice.  Then its file is written twice, with the same content,
so the schemas are written one after the other with this invariant: what has been
written is there, unless a later schema with the same name writes it again.
-/
import ApiSchema.Proofs.Conversion.Failure
import ApiSchema.Proofs.Files.Frame
import ApiSchema.Proofs.Reference.Meaning

namespace ApiSchema

namespace Conversion

variable {request : ConversionRequest} {settings : Settings} {d : Document}
  {output : OutputSettings} {schemas : List ConvertedSchema} {s t : Store} {directory : Path}
  {files : List (Value × String)} {paths : List String}

/-! ### Names -/

theorem name_of_convertSchema {document : Value} {settings : ReferenceSettings} {name : String}
    {c : ConvertedSchema} (h : (convertSchema document settings name).result = .ok c) :
    c.name = name := by
  obtain ⟨_, _, _, -, -, -, rfl⟩ := convertSchema_eq_ok h
  rfl

/-- The converted schemas have the listed names, and one name has one schema. -/
theorem names_of_convertSchemas (h : convertSchemas request settings d = .ok schemas) :
    schemas.map (·.name) = listed request d ∧
      ∀ a ∈ schemas, ∀ b ∈ schemas, a.name = b.name → a = b := by
  obtain ⟨names, hnames, hschemas⟩ := bind_eq_ok.mp h
  have hlisted : names = listed request d := by
    rw [selectNames_eq] at hnames
    split at hnames
    · simp at hnames
    · exact (Except.ok.inj hnames).symm
  constructor
  · rw [← hlisted, ← List.forall₂_eq_eq_eq, List.forall₂_map_left_iff]
    exact (mapM_eq_ok_iff.mp hschemas).flip.imp fun _ _ hc => name_of_convertSchema hc
  · intro a ha b hb hab
    obtain ⟨name, -, hname⟩ := exists_mem_of_mapM hschemas a ha
    obtain ⟨other, -, hother⟩ := exists_mem_of_mapM hschemas b hb
    obtain rfl : name = other := by
      rw [← name_of_convertSchema hname, ← name_of_convertSchema hother, hab]
    exact Except.ok.inj (hname.symm.trans hother)

/-- A name that is safe has no slash of either kind. -/
theorem safe_of_fileName {name file : String} (h : fileName name = .ok file) :
    '/' ∉ name.toList ∧ '\\' ∉ name.toList := by
  rw [fileName] at h
  split at h
  · simp at h
  · next hsafe =>
    rw [Bool.or_eq_true, not_or, List.any_eq_true] at hsafe
    constructor
    · intro hslash
      exact hsafe.2 ⟨_, hslash, by decide⟩
    · intro hslash
      exact hsafe.2 ⟨_, hslash, by decide⟩

/-- The file of a schema in a directory. -/
def fileAt (place : Location) (name : String) : Location := place ++ [name ++ ".json"]

theorem fileAt_inj {place : Location} {name other : String} :
    fileAt place name = fileAt place other ↔ name = other := by
  rw [fileAt, fileAt, List.append_cancel_left_eq, List.cons.injEq, String.append_left_inj]
  simp

theorem name_ne_dots (name : String) : name ++ ".json" ≠ ".." := by
  intro h
  have hlength := congrArg String.length h
  rw [String.length_append] at hlength
  have hending : ".json".length = 5 := by decide
  have hdots : "..".length = 2 := by decide
  omega

/-! ### Writing one schema after the other -/

theorem target_child {file : String} (hfile : file ≠ "..") :
    s.target (directory.child file) = s.target directory ++ [file] := by
  rw [Store.target, Path.child, Store.follow, List.foldl_append]
  simp [hfile, Store.target, Store.follow, Store.start]

theorem writeSchema_eq_ok {schema : Value} {file path : String} (hfile : file ≠ "..")
    (h : Yields (writeSchema directory output schema file) s (.ok path) t) :
    ∃ text, Json.render output.style schema = .ok text ∧ '\x00' ∉ file.toList ∧
      s.at? (s.target directory ++ [file]) ≠ some .directory ∧
      t = s.put (s.target directory ++ [file]) (.file (text ++ "\n").toUTF8) ∧
      path = Store.textOf (s.target directory ++ [file]) := by
  obtain ⟨text, u, hrender, hrest⟩ := Yields.exists_of_bind_ok h
  obtain ⟨htext, rfl⟩ := Yields.mk_pure_iff.mp hrender
  obtain ⟨_, v, hwrite, habsolute⟩ := Yields.exists_of_bind_ok hrest
  rw [← target_child hfile]
  obtain ⟨hzero, hfree, rfl⟩ := Yields.put_of_writeText (Yields.adapt_ok_iff.mp hwrite)
  obtain ⟨hpath, rfl⟩ := Yields.lift_iff.mp habsolute
  refine ⟨text, mapError_eq_ok.mp htext.symm, fun hmem => ?_, hfree, rfl, ?_⟩
  · have hchild := Path.hasZero_iff (p := directory.child file).mpr
      (.inr ⟨file, by simp [Path.child], hmem⟩)
    exact absurd (hchild.symm.trans hzero) (by decide)
  · exact Except.ok.inj hpath

/-- The second store has the files in the directory, with their schemas in them, and is the same as
the first one elsewhere.  No file takes the place of a directory. -/
structure Written (s t : Store) (directory : Path) (output : OutputSettings)
    (files : List (Value × String)) : Prop where
  home : t.home = s.home
  zero : ∀ f ∈ files, '\x00' ∉ f.2.toList
  free : ∀ f ∈ files, s.at? (s.target directory ++ [f.2]) ≠ some .directory
  content : ∀ f ∈ files, ∃ text, Json.render output.style f.1 = .ok text ∧
    t.at? (s.target directory ++ [f.2]) = some (.file (text ++ "\n").toUTF8)
  frame : ∀ loc, (∀ f ∈ files, loc ≠ s.target directory ++ [f.2]) → t.at? loc = s.at? loc

/-- One file is written before the others, and perhaps again with them. -/
theorem Written.cons {schema : Value} {file text : String} (hzero : '\x00' ∉ file.toList)
    (hfree : s.at? (s.target directory ++ [file]) ≠ some .directory)
    (htext : Json.render output.style schema = .ok text)
    (hsame : ∀ f ∈ files, f.2 = file → f.1 = schema)
    (h : Written (s.put (s.target directory ++ [file]) (.file (text ++ "\n").toUTF8)) t directory
      output files) :
    Written s t directory output ((schema, file) :: files) := by
  obtain ⟨hhome, hzeros, hfrees, hcontents, hframe⟩ := h
  rw [Store.target_eq_of_home (s := s) rfl] at hfrees hcontents hframe
  refine ⟨hhome, List.forall_mem_cons.mpr ⟨hzero, hzeros⟩, List.forall_mem_cons.mpr ⟨hfree, ?_⟩,
    List.forall_mem_cons.mpr ⟨?_, hcontents⟩, fun loc hloc => ?_⟩
  · intro f hf
    by_cases hfile : f.2 = file
    · rwa [hfile]
    · have hne : s.target directory ++ [f.2] ≠ s.target directory ++ [file] := by simpa using hfile
      rw [← Store.at?_put_of_ne s _ hne]
      exact hfrees f hf
  · -- If the file is written again, it is with the same schema.
    by_cases hagain : ∃ f ∈ files, f.2 = file
    · obtain ⟨f, hf, rfl⟩ := hagain
      rw [← hsame f hf rfl]
      exact hcontents f hf
    · refine ⟨text, htext, ?_⟩
      have hne : ∀ f ∈ files, s.target directory ++ [file] ≠ s.target directory ++ [f.2] := by
        intro f hf heq
        exact hagain ⟨f, hf, by simpa using heq.symm⟩
      rw [hframe _ hne, Store.at?_put_self s _ (by simp)]
  · obtain ⟨hfirst, hrest⟩ := List.forall_mem_cons.mp hloc
    rw [hframe loc hrest, Store.at?_put_of_ne s _ hfirst]

theorem written_of_mapM (hdots : ∀ f ∈ files, f.2 ≠ "..")
    (hsame : ∀ f ∈ files, ∀ g ∈ files, f.2 = g.2 → f.1 = g.1)
    (h : Yields (files.mapM fun (schema, file) => writeSchema directory output schema file) s
      (.ok paths) t) :
    Written s t directory output files ∧
      paths = files.map fun f => Store.textOf (s.target directory ++ [f.2]) := by
  induction files generalizing s paths with
  | nil =>
    obtain ⟨hpaths, rfl⟩ := Yields.pure_iff.mp h
    exact ⟨⟨rfl, by simp, by simp, by simp, fun _ _ => rfl⟩, Except.ok.inj hpaths⟩
  | cons f files ih =>
    obtain ⟨schema, file⟩ := f
    rw [List.mapM_cons] at h
    obtain ⟨path, u, hfirst, hrest⟩ := Yields.exists_of_bind_ok h
    obtain ⟨rest, v, hfiles, hpure⟩ := Yields.exists_of_bind_ok hrest
    obtain ⟨hpaths, rfl⟩ := Yields.pure_iff.mp hpure
    obtain ⟨hfile, hdots⟩ := List.forall_mem_cons.mp hdots
    obtain ⟨text, htext, hzero, hfree, rfl, rfl⟩ := writeSchema_eq_ok hfile hfirst
    obtain ⟨hwritten, rfl⟩ := ih hdots
      (fun f hf g hg => hsame f (List.mem_cons_of_mem _ hf) g (List.mem_cons_of_mem _ hg)) hfiles
    refine ⟨.cons hzero hfree htext (fun f hf hname => ?_) hwritten, ?_⟩
    · exact hsame f (List.mem_cons_of_mem _ hf) _ List.mem_cons_self hname
    · rw [Except.ok.inj hpaths, Store.target_eq_of_home (s := s) rfl]
      rfl

/-! ### The whole conversion -/

/-- What a conversion into a directory leaves behind. -/
structure Delivered (s t : Store) (directory : Path) (c : Conversion) : Prop where
  /-- The directory is there, and everything on the way to it is a directory. -/
  created : ∀ loc, s.OnWay directory loc → t.at? loc = some .directory
  /-- Every name is the name of a single file. -/
  name : ∀ schema ∈ c.schemas, ∀ char ∈ ['/', '\\', '\x00'], char ∉ schema.name.toList
  /-- A file belongs to one schema. -/
  apart : ∀ a ∈ c.schemas, ∀ b ∈ c.schemas,
    fileAt (s.target directory) a.name = fileAt (s.target directory) b.name → a = b
  /-- The file of a schema holds its text and a line end. -/
  content : ∀ schema ∈ c.schemas, ∃ text, Json.render c.output.style schema.schema = .ok text ∧
    t.at? (fileAt (s.target directory) schema.name) = some (.file (text ++ "\n").toUTF8)
  /-- Everything else is as before, but for directories on the way where nothing stood. -/
  frame : ∀ loc, (∀ schema ∈ c.schemas, loc ≠ fileAt (s.target directory) schema.name) →
    t.at? loc = s.at? loc ∨ s.at? loc = none ∧ s.OnWay directory loc
  /-- The paths of the files are listed in the order of the schemas. -/
  paths : c.outputPaths =
    c.schemas.map fun schema => Store.textOf (fileAt (s.target directory) schema.name)

theorem files_eq_of_mapM
    (h : schemas.mapM (fun s => do return (s.schema, ← fileName s.name)) = .ok files) :
    files = schemas.map fun s => (s.schema, s.name ++ ".json") := by
  rw [← List.forall₂_eq_eq_eq, List.forall₂_map_right_iff]
  refine (mapM_eq_ok_iff.mp h).flip.imp fun f schema hf => ?_
  obtain ⟨file, hfile, hpair⟩ := bind_eq_ok.mp hf
  rw [← Except.ok.inj hpair, fileName_eq_ok hfile]

theorem delivered_of_writeSchemas
    (hsame : ∀ a ∈ schemas, ∀ b ∈ schemas, a.name = b.name → a = b)
    (h : Yields (writeSchemas directory output schemas) s (.ok paths) t) :
    Delivered s t directory ⟨schemas, paths, output⟩ := by
  obtain ⟨files, u, hnames, hrest⟩ := Yields.exists_of_bind_ok h
  obtain ⟨hfiles, rfl⟩ := Yields.mk_pure_iff.mp hnames
  obtain ⟨_, v, hcreate, hwrite⟩ := Yields.exists_of_bind_ok hrest
  have hensures := Yields.ensures_of_ensureDirectories (Yields.adapt_ok_iff.mp hcreate)
  obtain rfl := files_eq_of_mapM hfiles.symm
  have hone : ∀ f ∈ schemas.map fun s => (s.schema, s.name ++ ".json"),
      ∀ g ∈ schemas.map fun s => (s.schema, s.name ++ ".json"), f.2 = g.2 → f.1 = g.1 := by
    simp only [List.forall_mem_map]
    intro a ha b hb hab
    rw [hsame a ha b hb ((String.append_left_inj _).mp hab)]
  obtain ⟨⟨-, hzero, hfree, hcontent, hframe⟩, hpaths⟩ :=
    written_of_mapM (by simp [name_ne_dots]) hone hwrite
  rw [Store.target_eq_of_home hensures.home] at hfree hcontent hframe hpaths
  simp only [List.forall_mem_map] at hzero hfree hcontent hframe
  refine ⟨fun loc hloc => ?_, fun schema hschema => ?_, ?_, hcontent, fun loc hloc => ?_, ?_⟩
  · -- No file takes the place of a directory, so the directories are still there.
    have hdirectory := hensures.directory loc hloc
    rw [hframe loc fun schema hschema heq => hfree schema hschema (heq ▸ hdirectory), hdirectory]
  · obtain ⟨f, hf⟩ := exists_ok_of_mapM hfiles.symm schema hschema
    obtain ⟨file, hfile, -⟩ := bind_eq_ok.mp hf
    obtain ⟨hslash, hbackslash⟩ := safe_of_fileName hfile
    have hnul : '\x00' ∉ schema.name.toList := fun hmem =>
      hzero schema hschema (by simp [hmem])
    simp [hslash, hbackslash, hnul]
  · intro a ha b hb hab
    exact hsame a ha b hb (fileAt_inj.mp hab)
  · rw [hframe loc hloc]
    exact hensures.frame loc
  · rw [hpaths, List.map_map]
    rfl

/-- **A conversion into a directory writes the files of its schemas there, and nothing else.**  The
schemas have the listed names, in their order, and are the converted ones of the document. -/
theorem run_delivers [Loader] {folder : String}
    (hfolder : given request.outputDirectory = some folder) {c : Conversion}
    (h : Yields (run request : TracedT _ _ Conversion).untraced s (.ok c) t) :
    Delivered s t (Path.ofText folder) c ∧
      ∃ settings d, Loads request s settings d ∧ settings.output = c.output ∧
        convertSchemas request settings d = .ok c.schemas ∧
        c.schemas.map (·.name) = listed request d := by
  rw [untraced_run] at h
  obtain ⟨⟨output, schemas⟩, u, hprepare, hrest⟩ := Yields.exists_of_bind_ok h
  -- Preparing only looks, so writing starts from the same store.
  obtain rfl := quiet_prepare request _ _ _ hprepare
  obtain ⟨settings, d, hloads, hschemas, houtput⟩ := exists_loads_of_prepare hprepare
  obtain ⟨hnames, hsame⟩ := names_of_convertSchemas hschemas
  obtain ⟨paths, v, hwrite, hpure⟩ := Yields.exists_of_bind_ok hrest
  obtain ⟨hc, rfl⟩ := Yields.pure_iff.mp hpure
  obtain rfl := Except.ok.inj hc
  simp only [writeOutput, hfolder] at hwrite
  exact ⟨delivered_of_writeSchemas hsame hwrite, settings, d, hloads, houtput, hschemas, hnames⟩

/-- One schema is asked for twice, and the files are to be written to a new directory in a new
one. -/
def repeatedRequest : ConversionRequest :=
  { document := "pets.yaml", schemas := ["Tag", "Pet", "Tag"], outputDirectory := some "out/json" }

/-- Two schemas. -/
def repeatedPets : Store :=
  petStore "Pet: \x7btype: object\x7d, Tag: \x7btype: string\x7d"

/-- The directories are created one in the other, and the file of the tags is written twice. -/
theorem run_delivers_repeatedPets :
    ∃ c t, Yields (run repeatedRequest : TracedT _ _ Conversion).untraced repeatedPets (.ok c) t ∧
      Delivered repeatedPets t ⟨"", ["out", "json"]⟩ c ∧
      c.schemas.map (·.name) = ["Tag", "Pet", "Tag"] := by
  have hruns : (((run repeatedRequest : TracedT _ (StateM Store) Conversion).untraced.run.run
      repeatedPets).run.1.toOption).isSome = true := by
    decide +kernel
  obtain ⟨c, hc⟩ := Option.isSome_iff_exists.mp hruns
  obtain ⟨t, hyields⟩ : ∃ t, Yields (run repeatedRequest : TracedT _ _ Conversion).untraced
      repeatedPets (.ok c) t := ⟨_, .of_toOption hc⟩
  have hpath : Path.ofText "out/json" = ⟨"", ["out", "json"]⟩ := by decide
  obtain ⟨hdelivered, settings, d, -, -, -, hnames⟩ :=
    run_delivers (by decide : given repeatedRequest.outputDirectory = some "out/json") hyields
  rw [hpath] at hdelivered
  exact ⟨c, t, hyields, hdelivered, hnames⟩

end Conversion

end ApiSchema
