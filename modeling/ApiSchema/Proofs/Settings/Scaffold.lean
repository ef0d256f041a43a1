/-
Writing the scaffold.

The scaffold is written in two steps: a look at what stands at the path, and a write that
would replace it.  Both steps follow the path in the same way, so they agree about every
path: what the first one takes for free is free for the second, and where the first one
finds no way the second one is refused (`ends_of_writeScaffold`).

So there are two ways for a run to end.  Either a file is created where nothing stood, and
nothing else is changed (`Creates`), or nothing is changed at all, because one of a few
things is in the way (`Blocked`).
-/
import ApiSchema.Proofs.Files.Frame
import ApiSchema.Proofs.Files.Reading
import ApiSchema.Settings.Loading

namespace ApiSchema

/-! ### Paths that can be followed -/

namespace Store

variable {s t : Store} {p : Path} {loc place : Location} {names : List String}

/-- A walk takes no name that is too long. -/
theorem short_of_walk (h : s.walk loc names = .ok place) :
    ∀ name ∈ names, name = ".." ∨ name.utf8ByteSize ≤ maxName := by
  induction names generalizing loc with
  | nil => simp
  | cons name names ih =>
    rw [walk] at h
    split at h
    · simp at h
    · simp at h
    · split at h
      · next hdots => exact List.forall_mem_cons.mpr ⟨.inl hdots, ih h⟩
      · split at h
        · simp at h
        · next hshort => exact List.forall_mem_cons.mpr ⟨.inr (Nat.le_of_not_lt hshort), ih h⟩

/-- A walk through directories, by names that are not too long, gets to its end. -/
theorem walk_of_directories
    (hway : ∀ front, front <+: names → front ≠ names →
      s.at? (follow loc front) = some .directory)
    (hshort : ∀ name ∈ names, name = ".." ∨ name.utf8ByteSize ≤ maxName) :
    s.walk loc names = .ok (follow loc names) := by
  induction names generalizing loc with
  | nil => rfl
  | cons name names ih =>
    obtain ⟨hname, hshort⟩ := List.forall_mem_cons.mp hshort
    have hfirst : s.at? loc = some .directory := hway [] List.nil_prefix (by simp)
    have hnext : ∀ front, front <+: names → front ≠ names →
        s.at? (follow (if name = ".." then loc.dropLast else loc ++ [name]) front) =
          some .directory := by
      intro front hfront hne
      exact hway (name :: front) ((List.prefix_cons_inj name).mpr hfront) (by simpa using hne)
    have hrest := ih hnext hshort
    rw [walk, hfirst]
    show (if name = ".." then s.walk loc.dropLast names else if maxName < name.utf8ByteSize then
      .error .nameTooLong else s.walk (loc ++ [name]) names) = _
    by_cases hdots : name = ".."
    · rw [if_pos hdots] at hrest ⊢
      rw [hrest, follow, follow, List.foldl_cons, if_pos hdots]
    · rw [if_neg hdots] at hrest ⊢
      rw [if_neg (Nat.not_lt_of_le (hname.resolve_left hdots)), hrest, follow, follow,
        List.foldl_cons, if_neg hdots]

/-- Where a path cannot be followed, nothing is found, or it is told why. -/
theorem present_of_lost {cause : RefusalCause} (h : s.locate p = .error cause) :
    s.present p = .ok false ∨ s.present p = .error cause := by
  rw [present, h]
  cases cause <;> simp

theorem present_of_found (h : s.locate p = .ok place) :
    s.present p = .ok (s.at? place).isSome := by
  rw [present, h]

theorem write_of_lost {bytes : ByteArray} {cause : RefusalCause} (h : s.locate p = .error cause) :
    s.write p bytes = .error cause := by
  rw [write, h]
  rfl

theorem write_of_free {bytes : ByteArray} (hplace : s.locate p = .ok place)
    (hfree : s.at? place = none) : s.write p bytes = .ok (s.put place (.file bytes)) := by
  simp only [write, hplace, bind, Except.bind, hfree]
  rfl

/-! ### What is in the way -/

/-- What keeps a file from being created at a path. -/
inductive Blocked (s : Store) (p : Path) : Prop
  /-- A file or a directory stands there. -/
  | occupied (taken : s.at? (s.target p) ≠ none)
  /-- The directory above it is missing or is none, or another one on the way. -/
  | cut (front : List String) (above : front <+: p.parts) (proper : front ≠ p.parts)
    (missing : s.at? (follow (s.start p) front) ≠ some .directory)
  /-- A name is too long. -/
  | longName (name : String) (part : name ∈ p.parts) (dots : name ≠ "..")
    (long : maxName < name.utf8ByteSize)
  /-- The path is too long. -/
  | longPath (long : pathLimit ≤ p.text.utf8ByteSize)
  /-- The path holds a zero character. -/
  | zero (hasZero : p.hasZero = true)

/-- A path that is not blocked leads to a free place. -/
theorem locate_of_not_blocked (h : ¬ s.Blocked p) :
    p.hasZero = false ∧ s.locate p = .ok (s.target p) ∧ s.at? (s.target p) = none := by
  have hshort : ∀ name ∈ p.parts, name = ".." ∨ name.utf8ByteSize ≤ maxName := by
    intro name hname
    by_contra hlong
    rw [not_or, Nat.not_le] at hlong
    exact h (.longName name hname hlong.1 hlong.2)
  have hway : ∀ front, front <+: p.parts → front ≠ p.parts →
      s.at? (follow (s.start p) front) = some .directory := by
    intro front hfront hne
    by_contra hother
    exact h (.cut front hfront hne hother)
  refine ⟨?_, ?_, ?_⟩
  · by_contra hzero
    exact h (.zero (by simpa using hzero))
  · rw [locate, if_neg fun hlong => h (.longPath hlong), walk_of_directories hway hshort]
    rfl
  · by_contra htaken
    exact h (.occupied htaken)

/-- A path with a place that is free is not blocked. -/
theorem not_blocked_of_locate (hzero : p.hasZero = false) (hplace : s.locate p = .ok place)
    (hfree : s.at? place = none) : ¬ s.Blocked p := by
  obtain ⟨rfl, -⟩ := locate_eq_ok hplace
  rw [locate] at hplace
  split at hplace
  · simp at hplace
  · next hlength =>
    intro hblocked
    cases hblocked with
    | occupied taken => exact taken hfree
    | cut front above proper missing => exact missing ((walk_eq_ok hplace).2 front above proper)
    | longName name part dots long =>
      exact absurd long (Nat.not_lt_of_le ((short_of_walk hplace name part).resolve_left dots))
    | longPath long => exact hlength long
    | zero hasZero => exact absurd (hasZero.symm.trans hzero) (by decide)

/-- The second store has a file with these bytes at the path, where nothing stands in the first one.
Everything else is the same. -/
structure Creates (s t : Store) (p : Path) (bytes : ByteArray) : Prop where
  home : t.home = s.home
  free : s.at? (s.target p) = none
  file : t.at? (s.target p) = some (.file bytes)
  frame : ∀ loc, loc ≠ s.target p → t.at? loc = s.at? loc

theorem creates_put {bytes : ByteArray} (hfree : s.at? (s.target p) = none) :
    Creates s (s.put (s.target p) (.file bytes)) p bytes where
  home := rfl
  free := hfree
  file := at?_put_self s _ (ne_nil_of_at? (s := s) (by simp [hfree]))
  frame _ hloc := at?_put_of_ne s _ hloc

/-- Everything that stands in the first store stands in the second one, with the same content. -/
def Keeps (s t : Store) : Prop := ∀ loc e, s.at? loc = some e → t.at? loc = some e

theorem Keeps.refl (s : Store) : Keeps s s := fun _ _ h => h

theorem Creates.keeps {bytes : ByteArray} (h : Creates s t p bytes) : Keeps s t := by
  intro loc e hloc
  have hne : loc ≠ s.target p := by
    rintro rfl
    simp [h.free] at hloc
  rw [h.frame loc hne, hloc]

end Store

/-! ### Runs -/

namespace Settings

open Store (Blocked Creates)

variable {s t : Store} {p : Path} {path : String} {r : Except (Failure ScaffoldError) String}

/-- The ways for writing the scaffold to end. -/
inductive Ends (s : Store) (p : Path) : Except (Failure ScaffoldError) String → Store → Prop
  /-- The path is none that a store takes. -/
  | zero (hasZero : p.hasZero = true) : Ends s p (.error (.fault .zeroInPath)) s
  /-- The path cannot be followed. -/
  | refused {cause : RefusalCause} (hasZero : p.hasZero = false)
    (lost : s.locate p = .error cause) : Ends s p (.error (.error (.refused ⟨cause, p⟩))) s
  /-- Something stands there. -/
  | present {place : Location} (hasZero : p.hasZero = false) (found : s.locate p = .ok place)
    (taken : s.at? place ≠ none) : Ends s p (.error (.error (.present (s.resolve p)))) s
  /-- The scaffold is written. -/
  | written {place : Location} (hasZero : p.hasZero = false) (found : s.locate p = .ok place)
    (free : s.at? place = none) :
    Ends s p (.ok (s.resolve p)) (s.put place (.file scaffold.toUTF8))

/-- One of the ways is always open. -/
theorem exists_ends (s : Store) (p : Path) : ∃ r t, Ends s p r t := by
  cases hzero : p.hasZero with
  | true => exact ⟨_, _, .zero hzero⟩
  | false =>
    cases hplace : s.locate p with
    | error cause => exact ⟨_, _, .refused hzero hplace⟩
    | ok place =>
      by_cases hfree : s.at? place = none
      · exact ⟨_, _, .written hzero hplace hfree⟩
      · exact ⟨_, _, .present hzero hplace hfree⟩

theorem yields_isPresent {there : Bool} (hzero : p.hasZero = false)
    (h : s.present p = .ok there) : Yields (FileSystem.isPresent p) s (.ok there) s := by
  rw [Yields.isPresent_iff, h, hzero]
  exact ⟨rfl, rfl⟩

/-- Where the look finds nothing, the scaffold is written as any text is. -/
theorem yields_of_absent
    (hlook : Yields (FileSystem.isPresent (Path.ofText path)) s (.ok false) s)
    (hwrite : Yields (do
      (FileSystem.writeText (Path.ofText path) scaffold).adapt (Failure.map ScaffoldError.refused)
      FileSystem.absolute (Path.ofText path)) s r t) :
    Yields (writeScaffold path) s r t :=
  Yields.bind_of_ok (Yields.adapt_ok_iff.mpr hlook) hwrite

/-- The look and the write agree about every path. -/
theorem yields_of_ends (h : Ends s (Path.ofText path) r t) : Yields (writeScaffold path) s r t := by
  cases h with
  | zero hasZero =>
    have hlook : Yields (FileSystem.isPresent (Path.ofText path)) s (.ok false) s :=
      Yields.isPresent_iff.mpr ⟨rfl, (if_pos hasZero).symm⟩
    have hwrite : Yields (FileSystem.writeText (Path.ofText path) scaffold) s
        (.error (.fault .zeroInPath)) s := Yields.writeText_iff.mpr (.inl ⟨hasZero, rfl, rfl⟩)
    exact yields_of_absent hlook (Yields.bind_of_error (Yields.adapt_fault_iff.mpr hwrite))
  | @refused cause hasZero lost =>
    rcases Store.present_of_lost lost with habsent | hrefused
    · -- The look goes as far as the write, which is refused for the same cause.
      have hwrite : Yields (FileSystem.writeText (Path.ofText path) scaffold) s
          (.error (.error ⟨cause, Path.ofText path⟩)) s :=
        Yields.writeText_iff.mpr (.inr ⟨hasZero, .inl ⟨cause, Store.write_of_lost lost, rfl, rfl⟩⟩)
      exact yields_of_absent (yields_isPresent hasZero habsent)
        (Yields.bind_of_error (Yields.adapt_error_iff.mpr ⟨_, hwrite, rfl⟩))
    · have hlook : Yields (FileSystem.isPresent (Path.ofText path)) s
          (.error (.error ⟨cause, Path.ofText path⟩)) s := by
        rw [Yields.isPresent_iff, hrefused, hasZero]
        exact ⟨rfl, rfl⟩
      exact Yields.bind_of_error (Yields.adapt_error_iff.mpr ⟨_, hlook, rfl⟩)
  | @present place hasZero found taken =>
    have hpresent : s.present (Path.ofText path) = .ok true := by
      rw [Store.present_of_found found, Option.isSome_iff_ne_none.mpr taken]
    exact Yields.bind_of_ok (Yields.adapt_ok_iff.mpr (yields_isPresent hasZero hpresent)) rfl
  | @written place hasZero found free =>
    have hpresent : s.present (Path.ofText path) = .ok false := by
      rw [Store.present_of_found found, free]
      rfl
    have hwrite : Yields (FileSystem.writeText (Path.ofText path) scaffold) s (.ok ())
        (s.put place (.file scaffold.toUTF8)) :=
      Yields.writeText_iff.mpr (.inr ⟨hasZero, .inr ⟨Store.write_of_free found free, rfl⟩⟩)
    exact yields_of_absent (yields_isPresent hasZero hpresent)
      (Yields.bind_of_ok (Yields.adapt_ok_iff.mpr hwrite) rfl)

/-- Writing the scaffold ends in one of the ways. -/
theorem ends_of_writeScaffold (h : Yields (writeScaffold path) s r t) :
    Ends s (Path.ofText path) r t := by
  obtain ⟨r', u, hends⟩ := exists_ends s (Path.ofText path)
  obtain ⟨rfl, rfl⟩ := h.unique (yields_of_ends hends)
  exact hends

/-- **Writing the scaffold creates a file or changes nothing**, and it is the path that decides. -/
theorem writeScaffold_creates_or_leaves (path : String) (s : Store) :
    (s.Blocked (Path.ofText path) ∧
      ∃ failure, Yields (writeScaffold path) s (.error failure) s) ∨
    (¬ s.Blocked (Path.ofText path) ∧
      ∃ t, Yields (writeScaffold path) s (.ok (s.resolve (Path.ofText path))) t ∧
        Creates s t (Path.ofText path) scaffold.toUTF8) := by
  by_cases hblocked : s.Blocked (Path.ofText path)
  · refine .inl ⟨hblocked, ?_⟩
    obtain ⟨r, t, hyields⟩ := Yields.exists_yields (writeScaffold path) s
    cases ends_of_writeScaffold hyields with
    | zero hasZero => exact ⟨_, hyields⟩
    | refused hasZero lost => exact ⟨_, hyields⟩
    | present hasZero found taken => exact ⟨_, hyields⟩
    | written hasZero found free =>
      exact absurd hblocked (Store.not_blocked_of_locate hasZero found free)
  · obtain ⟨hzero, hplace, hfree⟩ := Store.locate_of_not_blocked hblocked
    exact .inr ⟨hblocked, _, yields_of_ends (.written hzero hplace hfree),
      Store.creates_put hfree⟩

end Settings

end ApiSchema
