/-
Computations on a store.

A computation on files that runs on a store ends with a result and a store, and
`Yields` says with which.  It is taken apart at its binds as results are, with the
store in between carried along.

Two things are wanted of the operations of a program.  The ones that only look
leave the store as it is, whatever comes of them (`Quiet`).  The ones that change
it fail in two ways only: the store refuses, or the path holds a zero character,
which is found out before anything is changed.
-/
import ApiSchema.Files.Loader
import ApiSchema.Files.Store
import ApiSchema.Proofs.Result

namespace ApiSchema

variable {ε δ α β : Type}

/-- The computation ends with this result and this store. -/
def Yields (x : ExceptT ε (StateM Store) α) (s : Store) (r : Except ε α) (t : Store) : Prop :=
  (x.run.run s).run = (r, t)

namespace Yields

variable {x : ExceptT ε (StateM Store) α} {f : α → ExceptT ε (StateM Store) β} {s t : Store}
  {r r' : Except ε α} {p : Path}

/-- Every computation ends. -/
theorem exists_yields (x : ExceptT ε (StateM Store) α) (s : Store) : ∃ r t, Yields x s r t :=
  ⟨(x.run.run s).run.1, (x.run.run s).run.2, rfl⟩

theorem of_error? {e : ε} (h : error? (x.run.run s).run.1 = some e) :
    Yields x s (.error e) (x.run.run s).run.2 :=
  Prod.ext (error?_eq_some_iff.mp h) rfl

theorem of_toOption {a : α} (h : (x.run.run s).run.1.toOption = some a) :
    Yields x s (.ok a) (x.run.run s).run.2 :=
  Prod.ext (toOption_eq_some_iff.mp h) rfl

theorem of_all {P : α → Bool} (hP : (x.run.run s).run.1.toOption.all P = true) {a : α}
    (h : Yields x s (.ok a) t) : P a = true := by
  rw [h] at hP
  exact hP

theorem mk_pure_iff : Yields (ExceptT.mk (pure r')) s r t ↔ r = r' ∧ t = s := by
  show ((r', s) : Except ε α × Store) = (r, t) ↔ _
  rw [Prod.mk.injEq, eq_comm, @eq_comm _ s]

theorem pure_iff {a : α} : Yields (pure a) s r t ↔ r = .ok a ∧ t = s := mk_pure_iff

theorem throw_iff {e : ε} :
    Yields (throw e : ExceptT ε (StateM Store) α) s r t ↔ r = .error e ∧ t = s := mk_pure_iff

theorem lift_iff {act : StateM Store α} :
    Yields (ExceptT.lift act) s r t ↔ r = .ok (act s).1 ∧ t = (act s).2 := by
  show ((Except.ok (act s).1, (act s).2) : Except ε α × Store) = (r, t) ↔ _
  rw [Prod.mk.injEq, eq_comm, @eq_comm _ (act s).2]

theorem bind_iff {r : Except ε β} :
    Yields (x >>= f) s r t ↔
      (∃ e, r = .error e ∧ Yields x s (.error e) t) ∨
        ∃ a u, Yields x s (.ok a) u ∧ Yields (f a) u r t :=
  run_bind_iff

theorem bind_of_error {e : ε} (h : Yields x s (.error e) t) : Yields (x >>= f) s (.error e) t :=
  bind_iff.mpr (.inl ⟨e, rfl, h⟩)

theorem bind_of_ok {a : α} {u : Store} {r : Except ε β} (h : Yields x s (.ok a) u)
    (hf : Yields (f a) u r t) : Yields (x >>= f) s r t :=
  bind_iff.mpr (.inr ⟨a, u, h, hf⟩)

theorem exists_of_bind_ok {b : β} (h : Yields (x >>= f) s (.ok b) t) :
    ∃ a u, Yields x s (.ok a) u ∧ Yields (f a) u (.ok b) t := by
  rcases bind_iff.mp h with ⟨e, he, -⟩ | hok
  · simp at he
  · exact hok

/-- A computation ends in one way only. -/
theorem unique (h : Yields x s r t) {u : Store} (h' : Yields x s r' u) : r = r' ∧ t = u :=
  Prod.mk.inj (h.symm.trans h')

theorem eq_iff {u : Store} (h : Yields x s r u) : Yields x s r' t ↔ r' = r ∧ t = u := by
  constructor
  · intro h'
    exact h'.unique h
  · rintro ⟨rfl, rfl⟩
    exact h

theorem bind_iff_of_ok {a : α} {u : Store} {r : Except ε β} (h : Yields x s (.ok a) u) :
    Yields (x >>= f) s r t ↔ Yields (f a) u r t := by
  rw [bind_iff]
  constructor
  · rintro (⟨e, -, he⟩ | ⟨b, v, hb, hf⟩)
    · exact absurd (h.unique he).1 (by simp)
    · obtain ⟨hab, rfl⟩ := h.unique hb
      rwa [Except.ok.inj hab]
  · exact fun hf => .inr ⟨a, u, h, hf⟩

theorem lift_bind_iff {act : StateM Store α} {r : Except ε β} :
    Yields (ExceptT.lift act >>= f) s r t ↔ Yields (f (act s).1) (act s).2 r t := .rfl

/-- What is lifted does not fail, so what follows goes on with its answer. -/
theorem exists_of_lift_bind {act : StateM Store α} {r : Except ε β}
    (h : Yields (ExceptT.lift act >>= f) s r t) : ∃ a u, Yields (f a) u r t :=
  ⟨(act s).1, (act s).2, lift_bind_iff.mp h⟩

theorem adapt_iff {g : ε → δ} {r : Except δ α} :
    Yields (x.adapt g) s r t ↔ ∃ r', Yields x s r' t ∧ r = r'.mapError g := by
  have hrun : ((x.adapt g).run.run s).run =
      ((x.run.run s).run.1.mapError g, (x.run.run s).run.2) := rfl
  simp only [Yields, hrun]
  rcases (x.run.run s).run with ⟨r', u⟩
  constructor
  · intro h
    obtain ⟨rfl, rfl⟩ := Prod.mk.inj h
    exact ⟨r', rfl, rfl⟩
  · rintro ⟨r', h, rfl⟩
    obtain ⟨rfl, rfl⟩ := Prod.mk.inj h
    rfl

theorem adapt_ok_iff {g : ε → δ} {a : α} :
    Yields (x.adapt g) s (.ok a) t ↔ Yields x s (.ok a) t := by
  simp only [adapt_iff, eq_comm (a := Except.ok a), mapError_eq_ok, exists_eq_right]

theorem adapt_error_iff {g : ε → δ} {d : δ} :
    Yields (x.adapt g) s (.error d) t ↔ ∃ e, Yields x s (.error e) t ∧ g e = d := by
  rw [adapt_iff]
  constructor
  · rintro ⟨r', h, hd⟩
    obtain ⟨e, rfl, he⟩ := mapError_eq_error.mp hd.symm
    exact ⟨e, h, he⟩
  · rintro ⟨e, h, rfl⟩
    exact ⟨_, h, rfl⟩

theorem adapt_fault_iff {x : ExceptT (Failure ε) (StateM Store) α} {g : ε → δ} {f : Fault} :
    Yields (x.adapt (Failure.map g)) s (.error (.fault f)) t ↔
      Yields x s (.error (.fault f)) t := by
  simp only [adapt_error_iff, map_eq_fault, exists_eq_right]

/-- What an operation that may be refused ends with. -/
theorem attempt_iff {act : Path → StateM Store (Except RefusalCause α)}
    {r : Except (Failure Refusal) α} :
    Yields (FileSystem.attempt p act) s r t ↔
      r = (act p s).1.mapError (fun cause => .error ⟨cause, p⟩) ∧ t = (act p s).2 := by
  show ((((act p s).1.mapError _), (act p s).2) : Except (Failure Refusal) α × Store) = (r, t) ↔ _
  rw [Prod.mk.injEq, eq_comm, @eq_comm _ (act p s).2]

/-- Running over a list fails at a member, when it has run over those in front of it. -/
theorem mapM_error_iff {f : α → ExceptT ε (StateM Store) β} {l : List α} {e : ε} :
    Yields (l.mapM f) s (.error e) t ↔
      ∃ front a back bs u, l = front ++ a :: back ∧ Yields (front.mapM f) s (.ok bs) u ∧
        Yields (f a) u (.error e) t := by
  induction l generalizing s with
  | nil =>
    constructor
    · intro h
      simp [pure_iff] at h
    · rintro ⟨front, a, back, -, -, hsplit, -⟩
      simp at hsplit
  | cons first l ih =>
    rw [List.mapM_cons, bind_iff]
    constructor
    · rintro (⟨e', he, hfirst⟩ | ⟨b, u, hfirst, hrest⟩)
      · obtain rfl := Except.error.inj he
        exact ⟨[], first, l, [], s, rfl, pure_iff.mpr ⟨rfl, rfl⟩, hfirst⟩
      · rcases bind_iff.mp hrest with ⟨e', he, hl⟩ | ⟨bs, v, -, hpure⟩
        · obtain rfl := Except.error.inj he
          obtain ⟨front, a, back, bs, v, rfl, hfront, ha⟩ := ih.mp hl
          refine ⟨first :: front, a, back, b :: bs, v, rfl, ?_, ha⟩
          rw [List.mapM_cons, bind_iff_of_ok hfirst, bind_iff_of_ok hfront]
          exact pure_iff.mpr ⟨rfl, rfl⟩
        · simp [pure_iff] at hpure
    · rintro ⟨front, a, back, bs, u, hsplit, hfront, ha⟩
      cases front with
      | nil =>
        obtain ⟨rfl, rfl⟩ := List.cons.inj hsplit
        obtain rfl := (pure_iff.mp hfront).2
        exact .inl ⟨e, rfl, ha⟩
      | cons _ front =>
        obtain ⟨rfl, rfl⟩ := List.cons.inj hsplit
        rw [List.mapM_cons] at hfront
        obtain ⟨b, v, hfirst, hrest⟩ := exists_of_bind_ok hfront
        obtain ⟨bs', w, hfront, hpure⟩ := exists_of_bind_ok hrest
        obtain rfl := (pure_iff.mp hpure).2
        refine .inr ⟨b, v, hfirst, bind_iff.mpr (.inl ⟨e, rfl, ?_⟩)⟩
        exact ih.mpr ⟨front, a, back, bs', u, rfl, hfront, ha⟩

end Yields

/-! ### Operations that only look -/

/-- The computation leaves every store as it is. -/
def Quiet (x : ExceptT ε (StateM Store) α) : Prop := ∀ s r t, Yields x s r t → t = s

namespace Quiet

variable {x : ExceptT ε (StateM Store) α} {f : α → ExceptT ε (StateM Store) β} {p : Path}

/-- What only looks ends with its result and the store that it started with. -/
theorem yields (hx : Quiet x) {s : Store} {r : Except ε α} (h : (x.run.run s).run.1 = r) :
    Yields x s r s := by
  have hyields : Yields x s (x.run.run s).run.1 (x.run.run s).run.2 := rfl
  rwa [hx _ _ _ hyields, h] at hyields

theorem exists_yields (hx : Quiet x) (s : Store) : ∃ r, Yields x s r s := ⟨_, hx.yields rfl⟩

theorem mk_pure (r : Except ε α) : Quiet (ExceptT.mk (pure r)) :=
  fun _ _ _ h => (Yields.mk_pure_iff.mp h).2

theorem pure (a : α) : Quiet (pure a : ExceptT ε (StateM Store) α) := mk_pure (.ok a)

theorem throw (e : ε) : Quiet (throw e : ExceptT ε (StateM Store) α) := mk_pure (.error e)

theorem bind (hx : Quiet x) (hf : ∀ a, Quiet (f a)) : Quiet (x >>= f) := by
  intro s r t h
  rcases Yields.bind_iff.mp h with ⟨e, -, he⟩ | ⟨a, u, ha, hfa⟩
  · exact hx _ _ _ he
  · rw [hf a _ _ _ hfa, hx _ _ _ ha]

theorem adapt (hx : Quiet x) (g : ε → δ) : Quiet (x.adapt g) := by
  intro s r t h
  obtain ⟨r', hr', -⟩ := Yields.adapt_iff.mp h
  exact hx _ _ _ hr'

theorem absolute (p : Path) : Quiet (FileSystem.absolute p : ExceptT ε (StateM Store) String) :=
  fun _ _ _ h => (Yields.lift_iff.mp h).2

theorem attempt {act : Path → StateM Store (Except RefusalCause α)} (hact : ∀ s, (act p s).2 = s) :
    Quiet (FileSystem.attempt p act) := by
  intro s r t h
  rw [(Yields.attempt_iff.mp h).2, hact]

theorem checkZero (p : Path) : Quiet (FileSystem.checkZero p : FileSystem.Operation _ _) := by
  rw [FileSystem.checkZero]
  split
  · exact throw _
  · exact pure _

theorem isPresent (p : Path) : Quiet (FileSystem.isPresent p) := by
  rw [FileSystem.isPresent]
  split
  · exact pure _
  · exact attempt fun _ => rfl

theorem readText (p : Path) : Quiet (FileSystem.readText p) := by
  refine bind (checkZero p) fun _ => bind (attempt fun _ => rfl) fun bytes => ?_
  cases String.fromUTF8? bytes with
  | some text => exact pure _
  | none => exact throw _

theorem readFile [Loader] (p : Path) : Quiet (Loader.readFile p) := by
  refine bind (adapt (isPresent p) _) fun there => ?_
  cases there with
  | false => exact bind (throw _) fun _ => bind (adapt (readText p) _) fun _ => mk_pure _
  | true => exact bind (adapt (readText p) _) fun _ => mk_pure _

end Quiet

/-! ### Paths with a zero character -/

theorem mem_intercalate {separator : String} {c : Char} (hc : c ∉ separator.toList)
    (parts : List String) :
    c ∈ (separator.intercalate parts).toList ↔ ∃ part ∈ parts, c ∈ part.toList := by
  induction parts with
  | nil => simp
  | cons part parts ih =>
    cases parts with
    | nil => simp
    | cons next parts =>
      rw [String.intercalate_cons_cons, String.toList_append, String.toList_append]
      simp only [List.mem_append, ih, hc, or_false, List.mem_cons, exists_eq_or_imp]

namespace Path

/-- A zero character of a path is one of its root or of one of its names. -/
theorem hasZero_iff {p : Path} :
    p.hasZero = true ↔ '\x00' ∈ p.root.toList ∨ ∃ part ∈ p.parts, '\x00' ∈ part.toList := by
  rw [hasZero, List.contains_iff_mem, text]
  split
  · next hempty =>
    rw [Bool.and_eq_true, String.isEmpty_iff, List.isEmpty_iff] at hempty
    simp [hempty]
  · rw [String.toList_append, List.mem_append, mem_intercalate (by decide)]

theorem hasZero_child {p : Path} {name : String} (hp : p.hasZero = false) :
    (p.child name).hasZero = true ↔ '\x00' ∈ name.toList := by
  have hparts := Bool.eq_false_iff.mp hp
  rw [Ne, hasZero_iff, not_or] at hparts
  rw [hasZero_iff, child]
  simp only [List.mem_append, List.mem_singleton, or_and_right, exists_or, exists_eq_left, hparts,
    false_or]

end Path

/-! ### Operations that change the store -/

namespace Yields

variable {s t : Store} {p : Path} {e : Failure Refusal} {text : String}

/-- A path with a zero character is found out before anything else is done. -/
theorem checkZero_bind_iff {f : Unit → FileSystem.Operation (StateM Store) α}
    {r : Except (Failure Refusal) α} :
    Yields (FileSystem.checkZero p >>= f) s r t ↔
      (p.hasZero = true ∧ r = .error (.fault .zeroInPath) ∧ t = s) ∨
        p.hasZero = false ∧ Yields (f ()) s r t := by
  rw [FileSystem.checkZero]
  cases p.hasZero with
  | true => simp [throw_iff]
  | false => simp

theorem refused_of_orPresent {cause : RefusalCause}
    (h : Yields (FileSystem.orPresent p cause) s (.error e) t) : ∃ r, e = .error r := by
  obtain ⟨there, u, hthere⟩ := exists_of_lift_bind h
  cases there with
  | false => exact ⟨_, Except.error.inj (throw_iff.mp hthere).1⟩
  | true => simp [pure_iff] at hthere

theorem refused_of_ensureDirectory (h : Yields (FileSystem.ensureDirectory p) s (.error e) t) :
    ∃ r, e = .error r := by
  obtain ⟨created, u, hcreated⟩ := exists_of_lift_bind h
  rcases created with cause | _
  · cases cause with
    | missing => exact ⟨_, Except.error.inj (throw_iff.mp hcreated).1⟩
    | _ => exact refused_of_orPresent hcreated
  · simp [pure_iff] at hcreated

/-- Creating directories fails by a refusal only. -/
theorem refused_of_ensureBelow {root : String} {names : List String}
    (h : Yields (FileSystem.ensureBelow root names) s (.error e) t) : ∃ r, e = .error r := by
  induction names generalizing s t with
  | nil => exact refused_of_ensureDirectory h
  | cons name above ih =>
    obtain ⟨created, u, hcreated⟩ := exists_of_lift_bind h
    rcases created with cause | _
    · cases cause with
      | missing =>
        rcases bind_iff.mp hcreated with ⟨e', he, habove⟩ | ⟨_, v, -, hlast⟩
        · obtain rfl := Except.error.inj he
          exact ih habove
        · exact refused_of_ensureDirectory hlast
      | _ => exact refused_of_orPresent hcreated
    · simp [pure_iff] at hcreated

/-- Creating directories fails by a refusal, or for a zero character. -/
theorem ensureDirectories_error (h : Yields (FileSystem.ensureDirectories p) s (.error e) t) :
    (∃ r, e = .error r) ∨ p.hasZero = true ∧ e = .fault .zeroInPath ∧ t = s := by
  rcases checkZero_bind_iff.mp h with ⟨hp, he, hts⟩ | ⟨-, hbelow⟩
  · exact .inr ⟨hp, Except.error.inj he, hts⟩
  · exact .inl (refused_of_ensureBelow hbelow)

theorem hasZero_of_ensureDirectories {a : Unit}
    (h : Yields (FileSystem.ensureDirectories p) s (.ok a) t) : p.hasZero = false := by
  rcases checkZero_bind_iff.mp h with ⟨-, he, -⟩ | ⟨hp, -⟩
  · simp at he
  · exact hp

/-- A file is written, or nothing is changed: the store refuses, or there is a zero character. -/
theorem writeText_iff {r : Except (Failure Refusal) Unit} :
    Yields (FileSystem.writeText p text) s r t ↔
      (p.hasZero = true ∧ r = .error (.fault .zeroInPath) ∧ t = s) ∨ p.hasZero = false ∧
        ((∃ cause, s.write p text.toUTF8 = .error cause ∧ r = .error (.error ⟨cause, p⟩) ∧ t = s) ∨
          s.write p text.toUTF8 = .ok t ∧ r = .ok ()) := by
  rw [FileSystem.writeText, checkZero_bind_iff, attempt_iff]
  show _ ∨ p.hasZero = false ∧ r = (Store.change (·.write p text.toUTF8) s).1.mapError _ ∧
    t = (Store.change (·.write p text.toUTF8) s).2 ↔ _
  rw [Store.change]
  cases s.write p text.toUTF8 with
  | error cause => simp
  | ok u =>
    simp only [mapError_ok, reduceCtorEq, false_and, exists_false, false_or, Except.ok.injEq,
      and_comm, eq_comm (a := u)]

/-- Writing a file fails by a refusal, or for a zero character, and then nothing is changed. -/
theorem writeText_error (h : Yields (FileSystem.writeText p text) s (.error e) t) :
    t = s ∧ ((∃ r, e = .error r) ∨ p.hasZero = true ∧ e = .fault .zeroInPath) := by
  rcases writeText_iff.mp h with ⟨hp, he, hts⟩ | ⟨-, ⟨cause, -, he, hts⟩ | ⟨-, hr⟩⟩
  · exact ⟨hts, .inr ⟨hp, Except.error.inj he⟩⟩
  · exact ⟨hts, .inl ⟨_, Except.error.inj he⟩⟩
  · simp at hr

end Yields

end ApiSchema
