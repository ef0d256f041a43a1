/-
Computations that may fail.

A computation in `Except` is taken apart at its binds: it succeeds if the first
part does and the second one does with its answer, and it fails if one of them
fails.  The same for running over a list, where a success is known to be the
list of the single answers and a failure is the failure of a member.
-/
import ApiSchema.Fault
import ApiSchema.Trace
import Mathlib.Data.List.Forall2

namespace ApiSchema

variable {ε α β : Type}

theorem bind_eq_ok {x : Except ε α} {k : α → Except ε β} {b : β} :
    x >>= k = .ok b ↔ ∃ a, x = .ok a ∧ k a = .ok b := by
  cases x with
  | error e => simp [bind, Except.bind]
  | ok a => simp [bind, Except.bind]

theorem bind_eq_error {x : Except ε α} {k : α → Except ε β} {e : ε} :
    x >>= k = .error e ↔ x = .error e ∨ ∃ a, x = .ok a ∧ k a = .error e := by
  cases x with
  | error e => simp [bind, Except.bind]
  | ok a => simp [bind, Except.bind]

@[simp] theorem mapError_ok {δ : Type} (r : ε → δ) (a : α) :
    (.ok a : Except ε α).mapError r = .ok a := rfl

@[simp] theorem mapError_error {δ : Type} (r : ε → δ) (e : ε) :
    (.error e : Except ε α).mapError r = .error (r e) := rfl

theorem mapError_eq_ok {δ : Type} {x : Except ε α} {r : ε → δ} {a : α} :
    x.mapError r = .ok a ↔ x = .ok a := by
  cases x <;> simp

theorem mapError_eq_error {δ : Type} {x : Except ε α} {r : ε → δ} {d : δ} :
    x.mapError r = .error d ↔ ∃ e, x = .error e ∧ r e = d := by
  cases x <;> simp

theorem map_eq_fault {δ : Type} {g : ε → δ} {e : Failure ε} {f : Fault} :
    e.map g = .fault f ↔ e = .fault f := by
  cases e <;> simp [Failure.map]

theorem map_eq_error {δ : Type} {g : ε → δ} {e : Failure ε} {d : δ} :
    e.map g = .error d ↔ ∃ cause, e = .error cause ∧ g cause = d := by
  cases e <;> simp [Failure.map]

theorem toOption_eq_some_iff {x : Except ε α} {a : α} : x.toOption = some a ↔ x = .ok a := by
  cases x <;> simp [Except.toOption]

/-! ### Lists that are related member by member -/

theorem exists_mem_of_forall₂ {R : α → β → Prop} {l : List α} {l' : List β} {b : β}
    (h : List.Forall₂ R l l') (hb : b ∈ l') : ∃ a ∈ l, R a b := by
  induction h with
  | nil => simp at hb
  | cons hR _ ih =>
    rcases List.mem_cons.mp hb with rfl | hb
    · exact ⟨_, List.mem_cons_self, hR⟩
    · obtain ⟨a, ha, hab⟩ := ih hb
      exact ⟨a, List.mem_cons_of_mem _ ha, hab⟩

theorem exists_forall₂_iff {R : α → β → Prop} {l : List α} :
    (∃ l', List.Forall₂ R l l') ↔ ∀ a ∈ l, ∃ b, R a b := by
  induction l with
  | nil => simp
  | cons a l ih =>
    rw [List.forall_mem_cons, ← ih]
    constructor
    · rintro ⟨_, hb | ⟨hb, hrest⟩⟩
      exact ⟨⟨_, hb⟩, _, hrest⟩
    · rintro ⟨⟨b, hb⟩, l', hrest⟩
      exact ⟨b :: l', .cons hb hrest⟩

/-! ### Running over a list -/

theorem mapM_congr {m : Type → Type} [Monad m] [LawfulMonad m] {f g : α → m β} {l : List α}
    (h : ∀ a ∈ l, f a = g a) : l.mapM f = l.mapM g := by
  induction l with
  | nil => rfl
  | cons a l ih =>
    rw [List.mapM_cons, List.mapM_cons, h a (by simp), ih fun x hx => h x (by simp [hx])]

/-- What a computation makes of a value: its answer, or the value itself if it fails. -/
def answer (f : α → Except ε α) (a : α) : α :=
  match f a with
  | .ok b => b
  | .error _ => a

theorem answer_eq {f : α → Except ε α} {a b : α} (h : f a = .ok b) : answer f a = b := by
  rw [answer, h]

theorem mapM_eq_map_answer (f : α → Except ε α) (l : List α) :
    l.mapM f = (do let _ ← l.mapM f; return l.map (answer f)) := by
  induction l with
  | nil => rfl
  | cons a l ih =>
    rw [List.mapM_cons]
    cases ha : f a with
    | error e => rfl
    | ok b =>
      rw [ih]
      cases l.mapM f with
      | error e => rfl
      | ok bs => simp [bind, Except.bind, pure, Except.pure, answer_eq ha]

/-- Running over a list answers with the answers of its members, in order. -/
theorem mapM_eq_ok_iff {f : α → Except ε β} {l : List α} {bs : List β} :
    l.mapM f = .ok bs ↔ List.Forall₂ (fun a b => f a = .ok b) l bs := by
  induction l generalizing bs with
  | nil => simp [pure, Except.pure, eq_comm]
  | cons a l ih =>
    rw [List.mapM_cons, bind_eq_ok, List.forall₂_cons_left_iff]
    constructor
    · rintro ⟨b, hb, hrest⟩
      obtain ⟨cs, hcs, hbs⟩ := bind_eq_ok.mp hrest
      exact ⟨b, cs, hb, ih.mp hcs, (Except.ok.inj hbs).symm⟩
    · rintro ⟨b, cs, hb, hcs, rfl⟩
      exact ⟨b, hb, bind_eq_ok.mpr ⟨cs, ih.mpr hcs, rfl⟩⟩

theorem mapM_eq_ok_of_forall {f : α → Except ε β} {l : List α} (h : ∀ a ∈ l, ∃ b, f a = .ok b) :
    ∃ bs, l.mapM f = .ok bs := by
  induction l with
  | nil => exact ⟨[], rfl⟩
  | cons a l ih =>
    obtain ⟨b, hb⟩ := h a (by simp)
    obtain ⟨bs, hbs⟩ := ih fun x hx => h x (by simp [hx])
    exact ⟨b :: bs, by simp [hb, hbs, bind, Except.bind, pure, Except.pure]⟩

theorem mapM_eq_ok_map {f : α → Except ε β} {g : α → β} {l : List α}
    (h : ∀ a ∈ l, f a = .ok (g a)) : l.mapM f = .ok (l.map g) := by
  rw [mapM_eq_ok_iff, List.forall₂_map_right_iff, List.forall₂_same]
  exact h

theorem exists_ok_of_mapM {f : α → Except ε β} {l : List α} {bs : List β}
    (h : l.mapM f = .ok bs) : ∀ a ∈ l, ∃ b, f a = .ok b := by
  induction l generalizing bs with
  | nil => simp
  | cons x l ih =>
    rw [List.mapM_cons, bind_eq_ok] at h
    obtain ⟨b, hb, hrest⟩ := h
    obtain ⟨cs, hcs, -⟩ := bind_eq_ok.mp hrest
    intro a ha
    rcases List.mem_cons.mp ha with rfl | ha
    · exact ⟨b, hb⟩
    · exact ih hcs a ha

theorem exists_error_of_mapM {f : α → Except ε β} {l : List α} {e : ε}
    (h : l.mapM f = .error e) : ∃ a ∈ l, f a = .error e := by
  induction l with
  | nil => simp [pure, Except.pure] at h
  | cons x l ih =>
    rw [List.mapM_cons, bind_eq_error] at h
    rcases h with hx | ⟨b, -, hrest⟩
    · exact ⟨x, by simp, hx⟩
    · rcases bind_eq_error.mp hrest with hl | ⟨cs, -, hcs⟩
      · obtain ⟨a, ha, hfa⟩ := ih hl
        exact ⟨a, by simp [ha], hfa⟩
      · simp [pure, Except.pure] at hcs

theorem exists_error_of_mem_mapM {f : α → Except ε β} {l : List α} {a : α} (ha : a ∈ l)
    (h : ∃ e, f a = .error e) : ∃ e, l.mapM f = .error e := by
  cases hl : l.mapM f with
  | error e => exact ⟨e, rfl⟩
  | ok bs =>
    obtain ⟨b, hb⟩ := exists_ok_of_mapM hl a ha
    obtain ⟨e, he⟩ := h
    simp [hb] at he

theorem exists_mem_of_mapM {f : α → Except ε β} {l : List α} {bs : List β}
    (h : l.mapM f = .ok bs) : ∀ b ∈ bs, ∃ a ∈ l, f a = .ok b := by
  induction l generalizing bs with
  | nil =>
    obtain rfl := Except.ok.inj h
    simp
  | cons x l ih =>
    rw [List.mapM_cons, bind_eq_ok] at h
    obtain ⟨c, hc, hrest⟩ := h
    obtain ⟨cs, hcs, hbs⟩ := bind_eq_ok.mp hrest
    obtain rfl := Except.ok.inj hbs
    intro b hb
    rcases List.mem_cons.mp hb with rfl | hb
    · exact ⟨x, by simp, hc⟩
    · obtain ⟨a, ha, hfa⟩ := ih hcs b hb
      exact ⟨a, by simp [ha], hfa⟩

theorem mem_of_mapM {f : α → Except ε β} {l : List α} {bs : List β} {a : α} {b : β}
    (h : l.mapM f = .ok bs) (ha : a ∈ l) (hb : f a = .ok b) : b ∈ bs := by
  have hall := mapM_eq_ok_iff.mp h
  clear h
  induction hall with
  | nil => simp at ha
  | cons hx _ ih =>
    rcases List.mem_cons.mp ha with rfl | ha
    · obtain rfl := Except.ok.inj (hx.symm.trans hb)
      simp
    · exact List.mem_cons_of_mem _ (ih ha)

/-! ### The first failure -/

/-- The error of a computation that fails. -/
def error? : Except ε α → Option ε
  | .ok _ => none
  | .error e => some e

theorem error?_eq_some_iff {x : Except ε α} {e : ε} : error? x = some e ↔ x = .error e := by
  cases x <;> simp [error?]

theorem error?_eq_none_iff {x : Except ε α} : error? x = none ↔ ∃ a, x = .ok a := by
  cases x <;> simp [error?]

theorem error?_seq (x : Except ε α) (y : Except ε β) :
    error? (x >>= fun _ => y) = (error? x).or (error? y) := by
  cases x <;> rfl

/-- Running over a list fails as the first member does that fails. -/
theorem error?_mapM (f : α → Except ε β) (l : List α) :
    error? (l.mapM f) = l.findSome? fun a => error? (f a) := by
  induction l with
  | nil => rfl
  | cons a l ih =>
    rw [List.mapM_cons, List.findSome?_cons, ← ih]
    cases f a with
    | error e => rfl
    | ok b => cases l.mapM f <;> rfl

/-- Running over a list fails at the first member that fails. -/
theorem mapM_eq_error_iff {f : α → Except ε β} {l : List α} {e : ε} :
    l.mapM f = .error e ↔ ∃ before a after, l = before ++ a :: after ∧
      (∀ x ∈ before, ∃ b, f x = .ok b) ∧ f a = .error e := by
  rw [← error?_eq_some_iff, error?_mapM, List.findSome?_eq_some_iff]
  simp only [error?_eq_some_iff, error?_eq_none_iff, and_comm]

/-- All members pass, or there is a first one that fails. -/
theorem passes_or_fails (f : α → Except ε β) (l : List α) :
    (∀ a ∈ l, ∃ b, f a = .ok b) ∨ ∃ before a after e, l = before ++ a :: after ∧
      (∀ x ∈ before, ∃ b, f x = .ok b) ∧ f a = .error e := by
  cases h : l.mapM f with
  | ok bs => exact .inl (exists_ok_of_mapM h)
  | error e =>
    obtain ⟨before, a, after, hsplit, hbefore, ha⟩ := mapM_eq_error_iff.mp h
    exact .inr ⟨before, a, after, e, hsplit, hbefore, ha⟩

theorem findSome?_flatMap {l : List α} {g : α → List β} {p : α → Option ε} {q : β → Option ε}
    (h : ∀ a ∈ l, p a = (g a).findSome? q) : l.findSome? p = (l.flatMap g).findSome? q := by
  induction l with
  | nil => rfl
  | cons a l ih =>
    rw [List.findSome?_cons, List.flatMap_cons, List.findSome?_append, h a (by simp),
      ih fun x hx => h x (by simp [hx])]
    cases (g a).findSome? q <;> rfl

/-! ### Results with a state -/

/-- A computation on a state is taken apart at its binds, with the state in between. -/
theorem run_bind_iff {σ : Type} {x : ExceptT ε (StateM σ) α} {f : α → ExceptT ε (StateM σ) β}
    {s t : σ} {r : Except ε β} :
    ((x >>= f).run.run s).run = (r, t) ↔
      (∃ e, r = .error e ∧ (x.run.run s).run = (.error e, t)) ∨
        ∃ a u, (x.run.run s).run = (.ok a, u) ∧ ((f a).run.run u).run = (r, t) := by
  have hrun : ((x >>= f).run.run s).run =
      match (x.run.run s).run with
      | (.ok a, u) => ((f a).run.run u).run
      | (.error e, u) => (.error e, u) := by
    show (ExceptT.bindCont f (x.run.run s).run.1 (x.run.run s).run.2).run = _
    rcases (x.run.run s).run with ⟨_ | a, u⟩ <;> rfl
  rw [hrun]
  rcases (x.run.run s).run with ⟨e | a, u⟩
  · constructor
    · intro h
      obtain ⟨rfl, rfl⟩ := Prod.mk.inj h
      exact .inl ⟨e, rfl, rfl⟩
    · rintro (⟨e', rfl, h⟩ | ⟨a, v, h, -⟩)
      · obtain ⟨he, rfl⟩ := Prod.mk.inj h
        rw [Except.error.inj he]
      · simp at h
  · constructor
    · intro h
      exact .inr ⟨a, u, rfl, h⟩
    · rintro (⟨e, -, h⟩ | ⟨a', v, h, hf⟩)
      · simp at h
      · obtain ⟨ha, rfl⟩ := Prod.mk.inj h
        rw [Except.ok.inj ha]
        exact hf

/-! ### Results without their log -/

namespace Traced

/-- What is done after a computation only matters for the answer that it gives. -/
theorem bind_congr_of_ok {x : Traced ε α} {f g : α → Traced ε β}
    (h : ∀ a, x.result = .ok a → f a = g a) : x >>= f = x >>= g := by
  rcases x with ⟨lines, _ | a⟩
  · rfl
  · show bind _ f = bind _ g
    simp only [bind, h a rfl]

theorem result_mapM (f : α → Traced ε β) (l : List α) :
    (l.mapM f).result = l.mapM fun a => (f a).result := by
  induction l with
  | nil => rfl
  | cons a l ih =>
    rw [List.mapM_cons, List.mapM_cons, result_bind]
    congr 1
    funext b
    rw [result_bind, ih]
    rfl

theorem result_foldlM (f : β → α → Traced ε β) (l : List α) (b : β) :
    (l.foldlM f b).result = l.foldlM (fun b a => (f b a).result) b := by
  induction l generalizing b with
  | nil => rfl
  | cons a l ih =>
    rw [List.foldlM_cons, List.foldlM_cons, result_bind]
    congr 1
    funext c
    exact ih c

end Traced

namespace TracedT

variable {m : Type → Type} [Monad m]

/-- The computation without its log. -/
def untraced (x : TracedT ε m α) : ExceptT ε m α := ExceptT.mk (Traced.result <$> x.run)

variable [LawfulMonad m]

theorem untraced_pure (a : α) : untraced (pure a : TracedT ε m α) = pure a := by
  show ExceptT.mk (Traced.result <$> (pure _ : m _)) = _
  rw [map_pure]
  rfl

theorem untraced_bind (x : TracedT ε m α) (f : α → TracedT ε m β) :
    untraced (x >>= f) = untraced x >>= fun a => untraced (f a) := by
  apply ExceptT.ext
  show Traced.result <$> (x.run >>= _ : m _) = ((Traced.result <$> x.run : m _) >>= _ : m _)
  rw [map_bind, bind_map_left]
  congr 1
  funext t
  rcases t with ⟨lines, _ | a⟩
  · show Traced.result <$> (pure _ : m _) = pure _
    rw [map_pure]
  · show Traced.result <$> ((f a).run >>= fun u => (pure _ : m _)) = Traced.result <$> (f a).run
    simp

theorem untraced_ofExceptT (x : ExceptT ε m α) : untraced (ofExceptT x) = x := by
  apply ExceptT.ext
  show Traced.result <$> (Traced.ofExcept <$> x.run : m _) = x.run
  rw [← comp_map]
  exact id_map _

theorem untraced_ofTraced (t : Traced ε α) :
    untraced (ofTraced t : TracedT ε m α) = ExceptT.mk (pure t.result) := by
  show ExceptT.mk (Traced.result <$> (pure t : m _)) = _
  rw [map_pure]

theorem untraced_mapError {δ : Type} (g : ε → δ) (x : TracedT ε m α) :
    untraced (x.mapError g) = (untraced x).adapt g := by
  apply ExceptT.ext
  show Traced.result <$> (Traced.mapError g <$> x.run : m _) =
    Except.mapError g <$> (Traced.result <$> x.run : m _)
  rw [← comp_map, ← comp_map]
  rfl

end TracedT

end ApiSchema
