/-
Sessions.

A session is a list of steps on the same files.  Some steps are taken by hand: a file or a
directory is created, or a file is removed.  The others are taken by the program, through
its functions or through its command line, and a step that fails does not end the session.

Every step changes the files by single changes only, so the files stay a tree all the time.
A step that writes the scaffold adds one file or none, so what an earlier step has left is
still there behind it.  If something is gone, or is other than it was, there is a step in
between that has not written the scaffold (`exists_step_of_lost`).
-/
import ApiSchema.Proofs.CommandLine.Outcome
import ApiSchema.Proofs.Files.Changes
import ApiSchema.Proofs.Settings.Scaffold

namespace ApiSchema

open Relation (ReflTransGen)
open CommandLine (Command)

variable {ε α : Type} {s t : Store} {path : String}

/-! ### Steps of the program -/

namespace Stepwise

theorem writeScaffold (path : String) : Stepwise (Settings.writeScaffold path) := by
  intro s r t h
  cases Settings.ends_of_writeScaffold h with
  | written hasZero found free => exact .single (.written (Store.write_of_free found free))
  | _ => exact .refl

theorem writeSchemas (directory : Path) (output : OutputSettings)
    (schemas : List ConvertedSchema) :
    Stepwise (Conversion.writeSchemas directory output schemas) := by
  refine .bind (Quiet.mk_pure _).stepwise fun files => ?_
  refine .bind (.adapt (.ensureDirectories _) _) fun _ => .mapM (fun file => ?_) files
  exact .bind (Quiet.mk_pure _).stepwise fun text =>
    .bind (.adapt (.writeText _ _) _) fun _ => (Quiet.absolute _).stepwise

theorem conversion [Loader] (request : ConversionRequest) :
    Stepwise (Conversion.run request : TracedT _ _ Conversion).untraced := by
  rw [Conversion.untraced_run]
  refine .bind (Conversion.quiet_prepare request).stepwise fun prepared => ?_
  refine .bind ?_ fun _ => (Quiet.pure _).stepwise
  rw [Conversion.writeOutput]
  split
  · exact writeSchemas _ _ _
  · exact (Quiet.pure _).stepwise

theorem perform [Loader] (command : Command) :
    Stepwise (command.perform : TracedT _ _ String).untraced := by
  cases command with
  | generateConfig output =>
    rw [Command.perform, TracedT.untraced_bind, TracedT.untraced_ofExceptT]
    exact .bind (.adapt (writeScaffold output) _) fun _ => (Quiet.pure _).stepwise
  | listSchemas document =>
    rw [Command.perform, TracedT.untraced_bind, TracedT.untraced_mapError]
    exact .bind (.adapt (Conversion.quiet_loadDocument document).stepwise _)
      fun _ => (Quiet.pure _).stepwise
  | convert request =>
    rw [Command.perform, TracedT.untraced_bind, TracedT.untraced_mapError]
    refine .bind (.adapt (conversion request) _) fun c => ?_
    rw [TracedT.untraced_ofTraced]
    exact (Quiet.mk_pure _).stepwise

theorem program [Loader] (args : List String) :
    Stepwise (ExceptT.mk (CommandLine.run args) : ExceptT Fault (StateM Store) _) := by
  intro s r t h
  cases hreads : CommandLine.readArguments args with
  | error failure =>
    rw [CommandLine.run, hreads] at h
    cases failure <;> rw [(Yields.mk_pure_iff.mp h).2]
  | ok request =>
    cases request with
    | run verbose command =>
      obtain ⟨r', t', hperform⟩ := Yields.exists_yields command.perform.untraced s
      obtain ⟨lines, hrun⟩ := CommandLine.run_eq_of_yields hreads hperform
      rw [(Prod.mk.inj (h.symm.trans hrun)).2]
      exact perform command s r' t' hperform
    | _ =>
      rw [CommandLine.run, hreads] at h
      rw [(Yields.mk_pure_iff.mp h).2]

end Stepwise

/-! ### Steps of a session -/

/-- The store that a computation leaves behind, whether it has failed or not. -/
def Store.after (s : Store) (x : ExceptT ε (StateM Store) α) : Store := (x.run.run s).run.2

theorem Yields.after {x : ExceptT ε (StateM Store) α} {r : Except ε α} (h : Yields x s r t) :
    s.after x = t :=
  (Prod.mk.inj h).2

theorem Stepwise.after {x : ExceptT ε (StateM Store) α} (hx : Stepwise x) (s : Store) :
    ReflTransGen Store.Change s (s.after x) :=
  hx s _ _ rfl

/-- The path of the directory in which the last name of a path is looked up. -/
def Path.above (p : Path) : Path := { p with parts := p.parts.dropLast }

/-- One step of a session. -/
inductive Step where
  /-- A directory is created, with the missing ones above it. -/
  | createDirectory (path : String)
  /-- A file is written, and the missing directories above it are created. -/
  | createFile (path : String) (bytes : ByteArray)
  /-- A file is removed. -/
  | removeFile (path : String)
  /-- The files are listed. -/
  | listFiles
  /-- A document is loaded. -/
  | loadDocument (path : String)
  /-- Settings are loaded. -/
  | loadSettings (path : String)
  /-- The scaffold is written. -/
  | writeScaffold (path : String)
  /-- The schemas of a document are converted. -/
  | convert (request : ConversionRequest)
  /-- The program is called with arguments. -/
  | call (args : List String)

/-- The store behind a step. -/
def Store.take [Loader] (s : Store) : Step → Store
  | .createDirectory path => s.after (FileSystem.ensureDirectories (Path.ofText path))
  | .createFile path bytes => s.after (do
      let p := Path.ofText path
      FileSystem.ensureDirectories p.above
      FileSystem.attempt p (FileSystem.write · bytes))
  | .removeFile path =>
    s.after (FileSystem.attempt (Path.ofText path) fun p => Store.change (·.remove p))
  | .listFiles => s
  | .loadDocument path => s.after (Document.load path : TracedT _ _ Document).untraced
  | .loadSettings path => s.after (Settings.load path)
  | .writeScaffold path => s.after (Settings.writeScaffold path)
  | .convert request => s.after (Conversion.run request : TracedT _ _ Conversion).untraced
  | .call args => s.after (ExceptT.mk (CommandLine.run args))

/-- The path to which the step writes the scaffold, if that is what it does. -/
def Step.scaffoldPath : Step → Option String
  | .writeScaffold path => some path
  | .call args =>
    match CommandLine.readArguments args with
    | .ok (.run _ (.generateConfig path)) => some path
    | _ => none
  | _ => none

/-- The store behind a list of steps. -/
def Store.takeAll [Loader] (s : Store) (steps : List Step) : Store := steps.foldl Store.take s

/-- Every step makes single changes. -/
theorem Store.changes_take [Loader] (s : Store) (step : Step) :
    ReflTransGen Change s (s.take step) := by
  cases step with
  | createDirectory path => exact (Stepwise.ensureDirectories _).after s
  | createFile path bytes =>
    refine Stepwise.after (.bind (.ensureDirectories _) fun _ => ?_) s
    exact .attempt fun _ => changes_of_change fun _ h => .written h
  | removeFile path =>
    exact Stepwise.after (.attempt fun _ => changes_of_change fun _ h => .removed h) s
  | listFiles => exact .refl
  | loadDocument path => exact (Conversion.quiet_loadDocument path).stepwise.after s
  | loadSettings path =>
    refine Stepwise.after (Quiet.stepwise ?_) s
    exact .bind (.adapt (.readFile _) _) fun _ => .mk_pure _
  | writeScaffold path => exact (Stepwise.writeScaffold path).after s
  | convert request => exact (Stepwise.conversion request).after s
  | call args => exact (Stepwise.program args).after s

theorem Store.IsTree.takeAll [Loader] (hs : s.IsTree) (steps : List Step) :
    (s.takeAll steps).IsTree := by
  induction steps generalizing s with
  | nil => exact hs
  | cons step steps ih => exact ih (isTree_of_changes (s.changes_take step) hs)

/-! ### Steps that write the scaffold -/

/-- The command does to the files what the function does that it calls. -/
theorem writeScaffold_of_perform [Loader] {r : Except (Failure CommandLine.CommandError) String}
    (h : Yields (Command.generateConfig path).perform.untraced s r t) :
    ∃ r', Yields (Settings.writeScaffold path) s r' t := by
  rw [Command.perform, TracedT.untraced_bind, TracedT.untraced_ofExceptT] at h
  rcases Yields.bind_iff.mp h with ⟨e, -, hwrite⟩ | ⟨place, u, hwrite, hdone⟩
  · obtain ⟨e', hwrite, -⟩ := Yields.adapt_error_iff.mp hwrite
    exact ⟨_, hwrite⟩
  · rw [TracedT.untraced_pure] at hdone
    rw [(Yields.pure_iff.mp hdone).2]
    exact ⟨_, Yields.adapt_ok_iff.mp hwrite⟩

theorem Store.take_of_scaffoldPath [Loader] {step : Step} (h : step.scaffoldPath = some path)
    (s : Store) :
    s.take step = s.after (Settings.writeScaffold path) := by
  cases step with
  | writeScaffold path =>
    obtain rfl := Option.some.inj h
    rfl
  | call args =>
    rw [Step.scaffoldPath] at h
    split at h
    · next verbose output hreads =>
      obtain rfl := Option.some.inj h
      obtain ⟨r, t, hperform⟩ := Yields.exists_yields
        (Command.generateConfig output).perform.untraced s
      obtain ⟨lines, hrun⟩ := CommandLine.run_eq_of_yields hreads hperform
      obtain ⟨r', hwrite⟩ := writeScaffold_of_perform hperform
      rw [hwrite.after]
      exact Yields.after hrun
    · simp at h
  | _ => simp [Step.scaffoldPath] at h

/-- A step that writes the scaffold adds one file or changes nothing. -/
theorem Store.creates_or_eq_of_scaffoldPath [Loader] {step : Step}
    (h : step.scaffoldPath = some path) (s : Store) :
    s.take step = s ∨ s.Creates (s.take step) (Path.ofText path) scaffold.toUTF8 := by
  rw [take_of_scaffoldPath h]
  rcases Settings.writeScaffold_creates_or_leaves path s with ⟨-, failure, hfails⟩ |
    ⟨-, t, hwrites, hcreates⟩
  · exact .inl hfails.after
  · rw [hwrites.after]
    exact .inr hcreates

theorem Store.keeps_of_scaffoldPath [Loader] {step : Step} (h : step.scaffoldPath = some path)
    (s : Store) : s.Keeps (s.take step) := by
  rcases s.creates_or_eq_of_scaffoldPath h with hsame | hcreates
  · rw [hsame]
    exact .refl s
  · exact hcreates.keeps

/-- What was there and is gone, or is other than it was, was there before a step that does not write
the scaffold, and was not there behind it. -/
theorem exists_step_of_lost [Loader] {steps : List Step} {loc : Location} {e : Entry}
    (hthere : s.at? loc = some e) (hlost : (s.takeAll steps).at? loc ≠ some e) :
    ∃ before step after, steps = before ++ step :: after ∧ step.scaffoldPath = none ∧
      (s.takeAll before).at? loc = some e ∧ ((s.takeAll before).take step).at? loc ≠ some e := by
  induction steps generalizing s with
  | nil => exact absurd hthere hlost
  | cons step steps ih =>
    by_cases hnext : (s.take step).at? loc = some e
    · obtain ⟨before, other, after, rfl, hother, hbefore, hbehind⟩ := ih hnext hlost
      exact ⟨step :: before, other, after, rfl, hother, hbefore, hbehind⟩
    · refine ⟨[], step, steps, rfl, ?_, hthere, hnext⟩
      rw [Option.eq_none_iff_forall_ne_some]
      intro path hpath
      exact hnext (s.keeps_of_scaffoldPath hpath loc e hthere)

/-! ### What is never lost -/

/-- A path below something that is no directory of a tree is blocked. -/
theorem Store.IsTree.blocked_of_parent {p : Path} (hs : s.IsTree)
    (h : s.at? (s.target p.above) ≠ some .directory) : s.Blocked p := by
  rw [target, Path.above] at h
  rcases List.eq_nil_or_concat p.parts with hparts | ⟨front, name, hparts⟩
  · -- The path leads to where it starts, which is the working directory or the root.
    rw [hparts, List.dropLast_nil, follow, List.foldl_nil, start] at h
    split at h
    · exact absurd hs.home h
    · exact absurd rfl h
  · rw [List.concat_eq_append] at hparts
    rw [hparts, List.dropLast_concat] at h
    exact .cut front (by simp [hparts]) (by simp [hparts]) h

/-- **Writing the scaffold destroys nothing.**  Either it fails and leaves the store as it was, and
then the path is blocked, or it creates one file, which holds the scaffold, where nothing stood, and
changes nothing else.

In a session, whatever the steps before have left, a step that writes the scaffold keeps all of it,
and it adds nothing but that file.  If the session has started with a tree, writing the scaffold
fails whenever something stands at the path or there is no directory above it. -/
theorem writeScaffold_destroys_nothing [Loader] (s : Store) :
    (∀ path,
      (s.Blocked (.ofText path) ∧
        ∃ failure, Yields (Settings.writeScaffold path) s (.error failure) s) ∨
      (¬ s.Blocked (.ofText path) ∧
        ∃ t, Yields (Settings.writeScaffold path) s (.ok (s.resolve (.ofText path))) t ∧
          s.Creates t (.ofText path) scaffold.toUTF8)) ∧
    ∀ before left, s.takeAll before = left →
      (s.IsTree → ∀ path, left.at? (left.target (.ofText path)) ≠ none ∨
          left.at? (left.target (Path.ofText path).above) ≠ some .directory →
        ∃ failure, Yields (Settings.writeScaffold path) left (.error failure) left) ∧
      ∀ step path, step.scaffoldPath = some path → left.Keeps (left.take step) ∧
        (left.take step = left ∨
          left.Creates (left.take step) (.ofText path) scaffold.toUTF8) := by
  refine ⟨fun path => Settings.writeScaffold_creates_or_leaves path s, ?_⟩
  rintro before left rfl
  constructor
  · intro hs path hway
    have hblocked : (s.takeAll before).Blocked (.ofText path) := by
      rcases hway with htaken | habove
      · exact .occupied htaken
      · exact (hs.takeAll before).blocked_of_parent habove
    rcases Settings.writeScaffold_creates_or_leaves path (s.takeAll before) with ⟨-, hfails⟩ |
      ⟨hfree, -⟩
    · exact hfails
    · exact absurd hblocked hfree
  · intro step path hpath
    exact ⟨Store.keeps_of_scaffoldPath hpath _, Store.creates_or_eq_of_scaffoldPath hpath _⟩

/-- What is read stands at the target. -/
theorem Store.at?_of_read {p : Path} {bytes : ByteArray} (h : s.read p = .ok bytes) :
    s.at? (s.target p) = some (.file bytes) := by
  obtain ⟨place, hplace, hread⟩ := bind_eq_ok.mp h
  obtain ⟨rfl, -⟩ := locate_eq_ok hplace
  split at hread
  · next hfile => rw [hfile, Except.ok.inj hread]
  · simp [throw, throwThe, MonadExceptOf.throw] at hread
  · simp [throw, throwThe, MonadExceptOf.throw] at hread

namespace Notes

/-- A working directory in which nothing is. -/
def empty : Store := ⟨["work"], [(["work"], .directory)]⟩

/-- A file is written by hand, and the scaffold by the program. -/
def steps : List Step :=
  [.createFile "notes/a.yaml" "a: 1".toUTF8, .call ["generate-config", "--output", "b.yaml"]]

theorem isTree_empty : empty.IsTree := by
  refine ⟨rfl, fun above name hthere => ?_⟩
  cases above with
  | nil => rfl
  | cons first rest => simp [empty, Store.at?] at hthere

/-- The file is still there behind the steps. -/
theorem read_steps : (empty.takeAll steps).read ⟨"", ["notes", "a.yaml"]⟩ = .ok "a: 1".toUTF8 :=
  toOption_eq_some_iff.mp (by decide +kernel)

end Notes

/-- The scaffold is written to a new file, but not over itself and not below another file, and a
call that names the other file keeps it. -/
theorem writeScaffold_destroys_nothing_notes :
    (∃ t, Yields (Settings.writeScaffold "b.yaml") Notes.empty (.ok "/work/b.yaml") t ∧
      Notes.empty.Creates t ⟨"", ["b.yaml"]⟩ scaffold.toUTF8) ∧
    (∃ failure, Yields (Settings.writeScaffold "b.yaml")
      (Notes.empty.takeAll Notes.steps) (.error failure) (Notes.empty.takeAll Notes.steps)) ∧
    (∃ failure, Yields (Settings.writeScaffold "notes/a.yaml/b.yaml")
      (Notes.empty.takeAll Notes.steps) (.error failure) (Notes.empty.takeAll Notes.steps)) ∧
    (Notes.empty.takeAll Notes.steps).Keeps ((Notes.empty.takeAll Notes.steps).take
      (.call ["generate-config", "--output", "notes/a.yaml"])) := by
  obtain ⟨hone, hsession⟩ := writeScaffold_destroys_nothing Notes.empty
  obtain ⟨hfails, hkeeps⟩ := hsession Notes.steps _ rfl
  have hpath : Path.ofText "b.yaml" = ⟨"", ["b.yaml"]⟩ := by decide
  have habove : (Path.ofText "notes/a.yaml/b.yaml").above = ⟨"", ["notes", "a.yaml"]⟩ := by decide
  refine ⟨?_, hfails Notes.isTree_empty _ (.inl ?_), hfails Notes.isTree_empty _ (.inr ?_),
    (hkeeps _ "notes/a.yaml" ?_).1⟩
  · have hcreates := hone "b.yaml"
    rw [hpath] at hcreates
    have hplace : Notes.empty.locate ⟨"", ["b.yaml"]⟩ = .ok ["work", "b.yaml"] := by
      decide +kernel
    have hfree : ¬ Notes.empty.Blocked ⟨"", ["b.yaml"]⟩ :=
      Store.not_blocked_of_locate (by decide) hplace rfl
    obtain ⟨-, t, hwrites, hcreates⟩ := hcreates.resolve_left fun hblocked => hfree hblocked.1
    exact ⟨t, hwrites, hcreates⟩
  · decide +kernel
  · rw [habove, Store.at?_of_read Notes.read_steps]
    simp
  · have hreads : CommandLine.readArguments ["generate-config", "--output", "notes/a.yaml"] =
        .ok (.run false (.generateConfig "notes/a.yaml")) := by
      decide +kernel
    rw [Step.scaffoldPath, hreads]

end ApiSchema
