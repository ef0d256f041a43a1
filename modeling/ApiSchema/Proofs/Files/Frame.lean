/-
What operations on a store change.

A path leads from where it starts through directories to its target, and an
operation that succeeds has found a directory at every place on the way.  Creating
the directories of a path puts directories there where nothing stood (`Ensures`), and
writing puts a file at the target.  Everything else stays as it is.

The places on the way are those that the front parts of a path lead to.  They need not
lie around the target, because a part of two dots leads back, but its directory has to
be there to lead back from.
-/
import ApiSchema.Proofs.Files.Run

namespace ApiSchema

namespace Store

variable {s t u : Store} {p : Path} {loc place : Location} {names front : List String}

/-! ### Places of a path -/

/-- The location that a path leads to, whether anything stands there or not. -/
def target (s : Store) (p : Path) : Location := follow (s.start p) p.parts

/-- The location is on the way to the path, or it is its target. -/
def OnWay (s : Store) (p : Path) (loc : Location) : Prop :=
  ∃ front, front <+: p.parts ∧ follow (s.start p) front = loc

theorem onWay_target (s : Store) (p : Path) : s.OnWay p (s.target p) := ⟨_, List.prefix_rfl, rfl⟩

theorem start_eq_of_home (h : t.home = s.home) (p : Path) : t.start p = s.start p := by
  rw [start, start, h]

theorem target_eq_of_home (h : t.home = s.home) (p : Path) : t.target p = s.target p := by
  rw [target, target, start_eq_of_home h]

theorem onWay_iff_of_home (h : t.home = s.home) : t.OnWay p loc ↔ s.OnWay p loc := by
  rw [OnWay, OnWay, start_eq_of_home h]

/-- On the way to a place in a directory are the places on the way to the directory. -/
theorem onWay_concat_iff {root name : String} :
    s.OnWay ⟨root, front ++ [name]⟩ loc ↔
      s.target ⟨root, front ++ [name]⟩ = loc ∨ s.OnWay ⟨root, front⟩ loc := by
  constructor
  · rintro ⟨part, hpart, rfl⟩
    rcases List.prefix_concat_iff.mp hpart with rfl | hpart
    · exact .inl rfl
    · exact .inr ⟨part, hpart, rfl⟩
  · rintro (rfl | ⟨part, hpart, rfl⟩)
    · exact onWay_target s _
    · exact ⟨part, hpart.trans (List.prefix_append _ _), rfl⟩

/-! ### Finding the target -/

/-- A walk that succeeds has come through directories. -/
theorem walk_eq_ok (h : s.walk loc names = .ok place) :
    place = follow loc names ∧
      ∀ front, front <+: names → front ≠ names → s.at? (follow loc front) = some .directory := by
  induction names generalizing loc with
  | nil =>
    refine ⟨(Except.ok.inj h).symm, fun front hfront hne => ?_⟩
    exact absurd (List.prefix_nil.mp hfront) hne
  | cons name names ih =>
    rw [walk] at h
    split at h
    · simp at h
    · simp at h
    · next hdirectory =>
      have hrest : s.walk (if name = ".." then loc.dropLast else loc ++ [name]) names =
          .ok place := by
        split at h
        · next hdots => rwa [if_pos hdots]
        · next hdots =>
          rw [if_neg hdots]
          split at h
          · simp at h
          · exact h
      obtain ⟨hplace, hway⟩ := ih hrest
      refine ⟨hplace, fun front hfront hne => ?_⟩
      rcases List.prefix_cons_iff.mp hfront with rfl | ⟨rest, rfl, hrest⟩
      · exact hdirectory
      · exact hway rest hrest fun heq => hne (by rw [heq])

theorem locate_eq_ok (h : s.locate p = .ok place) :
    place = s.target p ∧ ∀ loc, s.OnWay p loc → loc ≠ s.target p → s.at? loc = some .directory := by
  rw [locate] at h
  split at h
  · simp at h
  · obtain ⟨hplace, hway⟩ := walk_eq_ok h
    refine ⟨hplace, ?_⟩
    rintro loc ⟨front, hfront, rfl⟩ hne
    exact hway front hfront fun heq => hne (by rw [heq, target])

theorem ne_nil_of_at? (h : s.at? loc ≠ some .directory) : loc ≠ [] := by
  rintro rfl
  exact h rfl

/-! ### Creating directories -/

/-- The second store has directories on the way to the path and at its target, where there are
directories or nothing in the first one.  Elsewhere it is the same. -/
structure Ensures (s t : Store) (p : Path) : Prop where
  home : t.home = s.home
  directory : ∀ loc, s.OnWay p loc → t.at? loc = some .directory
  frame : ∀ loc, t.at? loc = s.at? loc ∨ s.at? loc = none ∧ s.OnWay p loc

theorem createDirectory_ensures (h : s.createDirectory p = .ok t) : Ensures s t p := by
  obtain ⟨place, hplace, hput⟩ := bind_eq_ok.mp h
  obtain ⟨rfl, hway⟩ := locate_eq_ok hplace
  split at hput
  · simp [throw, throwThe, MonadExceptOf.throw] at hput
  · next hnone =>
    rw [← Except.ok.inj hput]
    have hne : s.target p ≠ [] := ne_nil_of_at? (s := s) (by simp [hnone])
    refine ⟨rfl, fun loc hloc => ?_, fun loc => ?_⟩
    · by_cases heq : loc = s.target p
      · rw [heq, at?_put_self s _ hne]
      · rw [at?_put_of_ne s _ heq]
        exact hway loc hloc heq
    · by_cases heq : loc = s.target p
      · exact .inr ⟨heq ▸ hnone, heq ▸ onWay_target s p⟩
      · exact .inl (at?_put_of_ne s _ heq)

theorem ensures_of_isDirectory (h : s.isDirectory p = true) : Ensures s s p := by
  rw [isDirectory] at h
  split at h
  · next place hplace =>
    obtain ⟨rfl, hway⟩ := locate_eq_ok hplace
    refine ⟨rfl, fun loc hloc => ?_, fun _ => .inl rfl⟩
    by_cases heq : loc = s.target p
    · split at h
      · next hdirectory => rw [heq, hdirectory]
      · simp at h
    · exact hway loc hloc heq
  · simp at h

/-- A directory is created in one that was ensured before. -/
theorem Ensures.below {root name : String} (habove : Ensures s u ⟨root, front⟩)
    (h : Ensures u t ⟨root, front ++ [name]⟩) : Ensures s t ⟨root, front ++ [name]⟩ where
  home := h.home.trans habove.home
  directory loc hloc := h.directory loc ((onWay_iff_of_home habove.home).mpr hloc)
  frame loc := by
    have hway : u.OnWay ⟨root, front ++ [name]⟩ loc ↔ s.OnWay ⟨root, front ++ [name]⟩ loc :=
      onWay_iff_of_home habove.home
    -- A place that either step has filled was free at the start, or the first step kept it free.
    rcases h.frame loc with hsame | ⟨hnone, hloc⟩
    · rcases habove.frame loc with hsame' | ⟨hnone, hloc⟩
      · exact .inl (hsame.trans hsame')
      · exact .inr ⟨hnone, onWay_concat_iff.mpr (.inr hloc)⟩
    · rcases habove.frame loc with hsame' | ⟨hnone', hloc'⟩
      · exact .inr ⟨hsame'.symm.trans hnone, hway.mp hloc⟩
      · exact .inr ⟨hnone', hway.mp hloc⟩

/-! ### Writing files -/

theorem write_eq_ok {bytes : ByteArray} (h : s.write p bytes = .ok t) :
    s.at? (s.target p) ≠ some .directory ∧ t = s.put (s.target p) (.file bytes) := by
  obtain ⟨place, hplace, hput⟩ := bind_eq_ok.mp h
  obtain ⟨rfl, -⟩ := locate_eq_ok hplace
  split at hput
  · simp [throw, throwThe, MonadExceptOf.throw] at hput
  · next hother => exact ⟨hother, (Except.ok.inj hput).symm⟩

end Store

/-! ### Runs -/

namespace Yields

variable {α : Type} {s t : Store} {p : Path} {a : Unit}

theorem ensures_of_orPresent {cause : RefusalCause}
    (h : Yields (FileSystem.orPresent p cause) s (.ok a) t) : s.Ensures t p := by
  replace h := lift_bind_iff.mp h
  change Yields (if s.isDirectory p then pure () else _) s (.ok a) t at h
  split at h
  · next hdirectory =>
    rw [(pure_iff.mp h).2]
    exact Store.ensures_of_isDirectory hdirectory
  · exact absurd (throw_iff.mp h).1 (by simp)

/-- Creating a directory goes on with the new store, or with the cause and the old one. -/
theorem createDirectory_bind_iff
    {f : Except RefusalCause Unit → FileSystem.Operation (StateM Store) α}
    {r : Except (Failure Refusal) α} :
    Yields (ExceptT.lift (FileSystem.createDirectory p : StateM Store _) >>= f) s r t ↔
      (∃ u, s.createDirectory p = .ok u ∧ Yields (f (.ok ())) u r t) ∨
        ∃ cause, s.createDirectory p = .error cause ∧ Yields (f (.error cause)) s r t := by
  rw [lift_bind_iff]
  show Yields (f (Store.change (·.createDirectory p) s).1)
    (Store.change (·.createDirectory p) s).2 r t ↔ _
  rw [Store.change]
  cases s.createDirectory p <;> simp

theorem ensures_of_ensureDirectory (h : Yields (FileSystem.ensureDirectory p) s (.ok a) t) :
    s.Ensures t p := by
  rcases createDirectory_bind_iff.mp h with ⟨u, hu, hdone⟩ | ⟨cause, -, hcause⟩
  · rw [(pure_iff.mp hdone).2]
    exact Store.createDirectory_ensures hu
  · cases cause with
    | missing => exact absurd (throw_iff.mp hcause).1 (by simp)
    | _ => exact ensures_of_orPresent hcause

theorem ensures_of_ensureBelow {root : String} {names : List String}
    (h : Yields (FileSystem.ensureBelow root names) s (.ok a) t) :
    s.Ensures t ⟨root, names.reverse⟩ := by
  induction names generalizing s t a with
  | nil => exact ensures_of_ensureDirectory h
  | cons name above ih =>
    rcases createDirectory_bind_iff.mp h with ⟨u, hu, hdone⟩ | ⟨cause, -, hcause⟩
    · rw [(pure_iff.mp hdone).2]
      exact Store.createDirectory_ensures hu
    · cases cause with
      | missing =>
        obtain ⟨_, u, habove, hlast⟩ := exists_of_bind_ok hcause
        rw [List.reverse_cons] at hlast ⊢
        exact (ih habove).below (ensures_of_ensureDirectory hlast)
      | _ => exact ensures_of_orPresent hcause

/-- A file that is written stands at the target, in place of no directory. -/
theorem put_of_writeText {text : String} (h : Yields (FileSystem.writeText p text) s (.ok a) t) :
    p.hasZero = false ∧ s.at? (s.target p) ≠ some .directory ∧
      t = s.put (s.target p) (.file text.toUTF8) := by
  rcases writeText_iff.mp h with ⟨-, he, -⟩ | ⟨hzero, ⟨_, -, he, -⟩ | ⟨hput, -⟩⟩
  · simp at he
  · simp at he
  · exact ⟨hzero, Store.write_eq_ok hput⟩

/-- **Directories that are ensured stand on the way to the path**, and nothing else is changed. -/
theorem ensures_of_ensureDirectories (h : Yields (FileSystem.ensureDirectories p) s (.ok a) t) :
    s.Ensures t p := by
  rcases checkZero_bind_iff.mp h with ⟨-, he, -⟩ | ⟨-, hbelow⟩
  · simp at he
  · have hensures := ensures_of_ensureBelow hbelow
    rwa [List.reverse_reverse] at hensures

end Yields

end ApiSchema
