/-
Changes of a store.

A store is changed in three ways only: a directory is created, a file is written, or a file
is removed.  Whatever a computation does to a store, it does by changes of these kinds, one
after the other (`Stepwise`), and that is said of a computation by saying it of its parts.

So what a single change preserves is preserved by every computation.  The first thing that
is wanted is that the store is a tree: what stands anywhere stands in a directory, and the
working directory is one.  A file is created and removed in a directory, and a directory is
never removed, so nothing loses the directory that it stands in.
-/
import ApiSchema.Proofs.Files.Frame
import Mathlib.Logic.Relation

namespace ApiSchema

namespace Store

open Relation (ReflTransGen)

variable {s t : Store} {p : Path} {loc place above : Location} {name : String}

/-! ### Trees -/

/-- What stands anywhere stands in a directory, and the working directory is one. -/
structure IsTree (s : Store) : Prop where
  home : s.at? s.home = some .directory
  inside : ∀ above name, s.at? (above ++ [name]) ≠ none → s.at? above = some .directory

/-- Leading back from a directory of a tree leads to a directory. -/
theorem IsTree.dropLast (hs : s.IsTree) (h : s.at? loc = some .directory) :
    s.at? loc.dropLast = some .directory := by
  rcases List.eq_nil_or_concat loc with rfl | ⟨above, name, rfl⟩
  · exact h
  · rw [List.concat_eq_append] at h ⊢
    rw [List.dropLast_concat]
    exact hs.inside above name (by simp [h])

/-- The place that a path leads to is in a directory of the tree. -/
theorem IsTree.inside_of_locate (hs : s.IsTree) (h : s.locate p = .ok (above ++ [name])) :
    s.at? above = some .directory := by
  rw [locate] at h
  split at h
  · simp at h
  obtain ⟨hplace, hway⟩ := walk_eq_ok h
  have hstart : s.at? (s.start p) = some .directory := by
    rw [start]
    split
    · exact hs.home
    · rfl
  rcases List.eq_nil_or_concat p.parts with hparts | ⟨front, last, hparts⟩
  · rw [hparts, follow, List.foldl_nil] at hplace
    exact hs.inside above name (by simp [hplace, hstart])
  · rw [List.concat_eq_append] at hparts
    have hfront : s.at? (follow (s.start p) front) = some .directory :=
      hway front (by simp [hparts]) (by simp [hparts])
    rw [hparts, follow, List.foldl_concat, ← follow] at hplace
    split at hplace
    · refine hs.inside above name ?_
      rw [hplace, hs.dropLast hfront]
      simp
    · rw [(List.append_inj' hplace rfl).1, hfront]

/-- A tree that is changed at one place stays a tree, unless there was a directory, or something is
put in no directory. -/
theorem IsTree.of_frame (hs : s.IsTree) (home : t.home = s.home)
    (frame : ∀ other, other ≠ loc → t.at? other = s.at? other)
    (hother : s.at? loc ≠ some .directory)
    (hinside : ∀ above name, loc = above ++ [name] → t.at? loc ≠ none →
      s.at? above = some .directory) : t.IsTree := by
  have hkeeps : ∀ other, s.at? other = some .directory → t.at? other = some .directory := by
    intro other hdirectory
    rw [frame other fun heq => hother (heq ▸ hdirectory), hdirectory]
  refine ⟨home ▸ hkeeps _ hs.home, fun above name hthere => hkeeps _ ?_⟩
  by_cases hloc : above ++ [name] = loc
  · exact hinside above name hloc.symm (hloc ▸ hthere)
  · exact hs.inside above name (by rwa [← frame _ hloc])

/-! ### Single changes -/

theorem at?_erase_self (hloc : loc ≠ []) : (s.erase loc).at? loc = none := by
  rw [at?, if_neg hloc, erase, List.lookup_eq_none_iff]
  intro entry hentry
  have hne : entry.1 ≠ loc := by simpa using (List.mem_filter.mp hentry).2
  exact bne_iff_ne.mpr hne.symm

/-- The store is changed to another one. -/
inductive Change (s : Store) : Store → Prop
  /-- A directory is created. -/
  | created {p : Path} {t : Store} (h : s.createDirectory p = .ok t) : Change s t
  /-- A file is written. -/
  | written {p : Path} {bytes : ByteArray} {t : Store} (h : s.write p bytes = .ok t) : Change s t
  /-- A file is removed. -/
  | removed {p : Path} {t : Store} (h : s.remove p = .ok t) : Change s t

/-- A tree stays a tree when it is changed. -/
theorem Change.isTree (h : Change s t) (hs : s.IsTree) : t.IsTree := by
  cases h with
  | @created p _ h =>
    obtain ⟨place, hplace, hput⟩ := bind_eq_ok.mp h
    split at hput
    · simp [throw, throwThe, MonadExceptOf.throw] at hput
    · next hnone =>
      rw [← Except.ok.inj hput]
      exact hs.of_frame rfl (fun other hne => at?_put_of_ne s _ hne) (by simp [hnone])
        fun above name heq _ => hs.inside_of_locate (heq ▸ hplace)
  | @written p bytes _ h =>
    obtain ⟨place, hplace, hput⟩ := bind_eq_ok.mp h
    split at hput
    · simp [throw, throwThe, MonadExceptOf.throw] at hput
    · next hother =>
      rw [← Except.ok.inj hput]
      exact hs.of_frame rfl (fun other hne => at?_put_of_ne s _ hne) hother
        fun above name heq _ => hs.inside_of_locate (heq ▸ hplace)
  | @removed p _ h =>
    obtain ⟨place, hplace, herase⟩ := bind_eq_ok.mp h
    split at herase
    · next hfile =>
      rw [← Except.ok.inj herase]
      have hne : place ≠ [] := ne_nil_of_at? (s := s) (by simp [hfile])
      exact hs.of_frame rfl (fun other hne => at?_erase_of_ne s hne) (by simp [hfile])
        fun above name heq hthere => absurd (at?_erase_self hne) hthere
    · simp [throw, throwThe, MonadExceptOf.throw] at herase
    · simp [throw, throwThe, MonadExceptOf.throw] at herase

/-- **A tree stays a tree**, however often it is changed. -/
theorem isTree_of_changes (h : ReflTransGen Change s t) (hs : s.IsTree) : t.IsTree := by
  induction h with
  | refl => exact hs
  | tail _ hchange ih => exact hchange.isTree ih

/-- An operation changes the store once, or it is refused. -/
theorem changes_of_change {f : Store → Except RefusalCause Store}
    (hf : ∀ t, f s = .ok t → Change s t) : ReflTransGen Change s (change f s).2 := by
  rw [change]
  split
  · next t hok => exact .single (hf t hok)
  · exact .refl

end Store

/-! ### Computations -/

variable {ε δ α β : Type}

/-- The computation changes a store by single changes, one after the other. -/
def Stepwise (x : ExceptT ε (StateM Store) α) : Prop :=
  ∀ s r t, Yields x s r t → Relation.ReflTransGen Store.Change s t

theorem Quiet.stepwise {x : ExceptT ε (StateM Store) α} (hx : Quiet x) : Stepwise x := by
  intro s r t h
  rw [hx s r t h]

namespace Stepwise

variable {x : ExceptT ε (StateM Store) α} {f : α → ExceptT ε (StateM Store) β} {p : Path}

theorem bind (hx : Stepwise x) (hf : ∀ a, Stepwise (f a)) : Stepwise (x >>= f) := by
  intro s r t h
  rcases Yields.bind_iff.mp h with ⟨e, -, he⟩ | ⟨a, u, ha, hfa⟩
  · exact hx _ _ _ he
  · exact (hx _ _ _ ha).trans (hf a _ _ _ hfa)

theorem adapt (hx : Stepwise x) (g : ε → δ) : Stepwise (x.adapt g) := by
  intro s r t h
  obtain ⟨r', hr', -⟩ := Yields.adapt_iff.mp h
  exact hx _ _ _ hr'

theorem mapM {f : α → ExceptT ε (StateM Store) β} (hf : ∀ a, Stepwise (f a)) (l : List α) :
    Stepwise (l.mapM f) := by
  induction l with
  | nil => exact (Quiet.pure _).stepwise
  | cons a l ih =>
    rw [List.mapM_cons]
    exact bind (hf a) fun b => bind ih fun bs => (Quiet.pure _).stepwise

theorem attempt {act : Path → StateM Store (Except RefusalCause α)}
    (hact : ∀ s, Relation.ReflTransGen Store.Change s (act p s).2) :
    Stepwise (FileSystem.attempt p act) := by
  intro s r t h
  rw [(Yields.attempt_iff.mp h).2]
  exact hact s

theorem writeText (p : Path) (text : String) : Stepwise (FileSystem.writeText p text) :=
  bind (Quiet.checkZero p).stepwise fun _ =>
    attempt fun _ => Store.changes_of_change fun _ h => .written h

theorem createDirectory (p : Path) :
    Stepwise (ExceptT.lift (FileSystem.createDirectory p) : ExceptT ε (StateM Store) _) := by
  intro s r t h
  rw [(Yields.lift_iff.mp h).2]
  exact Store.changes_of_change fun _ h => .created h

theorem orPresent (p : Path) (cause : RefusalCause) :
    Stepwise (FileSystem.orPresent p cause : FileSystem.Operation (StateM Store) Unit) := by
  refine bind (Quiet.stepwise fun s r t h => (Yields.lift_iff.mp h).2) fun there => ?_
  cases there with
  | false => exact (Quiet.throw _).stepwise
  | true => exact (Quiet.pure _).stepwise

theorem ensureDirectory (p : Path) : Stepwise (FileSystem.ensureDirectory p) := by
  refine bind (createDirectory p) fun created => ?_
  cases created with
  | ok _ => exact (Quiet.pure _).stepwise
  | error cause =>
    cases cause with
    | missing => exact (Quiet.throw _).stepwise
    | _ => exact orPresent p _

theorem ensureBelow (root : String) (names : List String) :
    Stepwise (FileSystem.ensureBelow root names) := by
  induction names with
  | nil => exact ensureDirectory _
  | cons name names ih =>
    refine bind (createDirectory _) fun created => ?_
    cases created with
    | ok _ => exact (Quiet.pure _).stepwise
    | error cause =>
      cases cause with
      | missing => exact bind ih fun _ => ensureDirectory _
      | _ => exact orPresent _ _

theorem ensureDirectories (p : Path) : Stepwise (FileSystem.ensureDirectories p) :=
  bind (Quiet.checkZero p).stepwise fun _ => ensureBelow p.root p.parts.reverse

end Stepwise

end ApiSchema
