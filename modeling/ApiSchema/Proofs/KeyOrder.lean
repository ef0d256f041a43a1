/-
Sorting by keys.

Keys of different kinds have no order, so sorting may fail.  Keys of one kind are all in
order with each other (`Comparable`).  Every key that sorting puts in its place is
compared with one that stands there already, so pairs can be sorted if and only if every
two of their keys are of one kind (`exists_sortByKey_iff`).  That sorting neither loses
nor adds a pair does not depend on the keys.

Texts ascend by code point.  Where no text stands twice there is one such arrangement,
so sorting finds it whatever the order was before.
-/
import ApiSchema.Scalar
import Mathlib.Data.List.Nodup
import Mathlib.Data.List.Perm.Basic

namespace ApiSchema

namespace Scalar

/-- The key is a text. -/
def isText : Scalar → Bool
  | str _ => true
  | _ => false

theorem eq_str_name {k : Scalar} (hk : k.isText = true) : k = .str k.name := by
  cases k with
  | str s => rfl
  | _ => simp [isText] at hk

theorem lt?_of_isText {a b : Scalar} (ha : a.isText = true) (hb : b.isText = true) :
    a.lt? b = some (decide (a.name < b.name)) := by
  rw [eq_str_name ha, eq_str_name hb]
  rfl

/-! ### Kinds of keys -/

/-- What keys are compared by. -/
inductive KeyKind where
  /-- By code points. -/
  | text
  /-- By bytes. -/
  | bytes
  /-- By days. -/
  | date
  /-- By what a clock shows. -/
  | clock
  /-- By instants. -/
  | instant
  /-- By quantities. -/
  | number
deriving DecidableEq

/-- What a key is compared by, if it can be compared at all. -/
def kind? : Scalar → Option KeyKind
  | str _ => some .text
  | bytes _ => some .bytes
  | date _ => some .date
  | moment t => some (if t.offset.isSome then .instant else .clock)
  | bool _ | int _ | float _ => some .number
  | null | set _ _ | enclosing _ => none

/-- The keys are compared by the same. -/
def Comparable (a b : Scalar) : Prop := a.kind? ≠ none ∧ a.kind? = b.kind?

instance (a b : Scalar) : Decidable (Comparable a b) :=
  inferInstanceAs (Decidable (a.kind? ≠ none ∧ a.kind? = b.kind?))

theorem Comparable.symm {a b : Scalar} (h : Comparable a b) : Comparable b a :=
  ⟨h.2 ▸ h.1, h.2.symm⟩

theorem Comparable.trans {a b c : Scalar} (hab : Comparable a b) (hbc : Comparable b c) :
    Comparable a c :=
  ⟨hab.1, hab.2.trans hbc.2⟩

/-- One key sorts before another or does not if they are compared by the same. -/
theorem exists_lt?_iff {a b : Scalar} : (∃ before, a.lt? b = some before) ↔ Comparable a b := by
  rw [← Option.isSome_iff_exists, Comparable]
  cases a <;> cases b <;> simp only [lt?, quantity?, kind?] <;> try simp
  case moment.moment t u =>
    simp only [Moment.instant?]
    cases t.offset <;> cases u.offset <;> simp
  all_goals split <;> simp

/-- Every two of the keys are comparable. -/
def Sortable (keys : List Scalar) : Prop := keys.Pairwise Comparable

instance (keys : List Scalar) : Decidable (Sortable keys) :=
  inferInstanceAs (Decidable (keys.Pairwise Comparable))

theorem Sortable.of_perm {keys others : List Scalar} (h : Sortable keys)
    (hperm : keys.Perm others) : Sortable others :=
  h.perm hperm Comparable.symm

/-- A key that is comparable with the first one is comparable with all of them. -/
theorem Sortable.cons {a b : Scalar} {keys : List Scalar} (h : Sortable (b :: keys))
    (hab : Comparable a b) : Sortable (a :: b :: keys) := by
  refine List.pairwise_cons.mpr ⟨fun c hc => ?_, h⟩
  rcases List.mem_cons.mp hc with rfl | hc
  · exact hab
  · exact hab.trans ((List.pairwise_cons.mp h).1 c hc)

/-- One key alone is in order. -/
theorem sortable_of_length_le {keys : List Scalar} (h : keys.length ≤ 1) : Sortable keys := by
  cases keys with
  | nil => exact .nil
  | cons k keys =>
    obtain rfl : keys = [] := by simpa using h
    exact List.pairwise_singleton _ _

theorem sortable_of_isText {keys : List Scalar} (h : ∀ k ∈ keys, k.isText = true) :
    Sortable keys := by
  have hkind (k : Scalar) (hk : k ∈ keys) : k.kind? = some .text := by
    rw [eq_str_name (h k hk)]
    rfl
  rw [Sortable, List.pairwise_iff_forall_sublist]
  intro a b hab
  have ha := hkind a (hab.subset (by simp))
  have hb := hkind b (hab.subset (by simp))
  exact ⟨by simp [ha], by rw [ha, hb]⟩

variable {α β : Type} {pairs others sorted : List (Scalar × α)} {key : Scalar} {x : α}

/-- The names of the keys ascend, by code point. -/
def Ascending (pairs : List (Scalar × α)) : Prop :=
  pairs.Pairwise fun p q => p.1.name ≤ q.1.name

theorem Ascending.le_of_mem {p q : Scalar × α} (h : Ascending (p :: pairs)) (hq : q ∈ p :: pairs) :
    p.1.name ≤ q.1.name := by
  rcases List.mem_cons.mp hq with rfl | hq
  · exact String.le_refl _
  · exact (List.pairwise_cons.mp h).1 q hq

/-! ### What sorting does -/

section Steps

variable {goesOn : Scalar → Scalar → Option Bool} {p : Scalar × α}
  {run rest out : List (Scalar × α)}

/-- A run ends in front of a pair or goes on with it. -/
theorem splitRun_cons_cases (h : splitRun goesOn key (p :: pairs) = some (run, rest)) :
    (goesOn key p.1 = some false ∧ run = [] ∧ rest = p :: pairs) ∨
      ∃ run', goesOn key p.1 = some true ∧ splitRun goesOn p.1 pairs = some (run', rest) ∧
        run = p :: run' := by
  obtain ⟨k, y⟩ := p
  obtain ⟨on, hon, hrest⟩ := Option.bind_eq_some_iff.mp h
  cases on with
  | false =>
    obtain ⟨rfl, rfl⟩ := Prod.mk.inj (Option.some.inj hrest)
    exact .inl ⟨hon, rfl, rfl⟩
  | true =>
    obtain ⟨⟨run', rest'⟩, hrun, hsome⟩ := Option.bind_eq_some_iff.mp hrest
    obtain ⟨rfl, rfl⟩ := Prod.mk.inj (Option.some.inj hsome)
    exact .inr ⟨run', hon, hrun, rfl⟩

/-- The first run is all there is, descends and is reversed, or ascends. -/
theorem firstRun_cases (h : firstRun pairs = some (run, rest)) :
    (pairs.length ≤ 1 ∧ run = pairs ∧ rest = []) ∨
      ∃ first second tail run', pairs = first :: second :: tail ∧
        (second.1.lt? first.1 = some true ∧
            splitRun (fun a b => b.lt? a) second.1 tail = some (run', rest) ∧
            run = (first :: second :: run').reverse ∨
          second.1.lt? first.1 = some false ∧
            splitRun (fun a b => (b.lt? a).map not) second.1 tail = some (run', rest) ∧
            run = first :: second :: run') := by
  cases pairs with
  | nil =>
    obtain ⟨rfl, rfl⟩ := Prod.mk.inj (Option.some.inj h)
    exact .inl ⟨Nat.zero_le 1, rfl, rfl⟩
  | cons first pairs =>
    cases pairs with
    | nil =>
      obtain ⟨rfl, rfl⟩ := Prod.mk.inj (Option.some.inj h)
      exact .inl ⟨Nat.le_refl 1, rfl, rfl⟩
    | cons second tail =>
      obtain ⟨before, hbefore, hrest⟩ := Option.bind_eq_some_iff.mp h
      refine .inr ⟨first, second, tail, ?_⟩
      cases before with
      | true =>
        obtain ⟨⟨run', rest'⟩, hrun, hsome⟩ := Option.bind_eq_some_iff.mp hrest
        obtain ⟨rfl, rfl⟩ := Prod.mk.inj (Option.some.inj hsome)
        exact ⟨run', rfl, .inl ⟨hbefore, hrun, rfl⟩⟩
      | false =>
        obtain ⟨⟨run', rest'⟩, hrun, hsome⟩ := Option.bind_eq_some_iff.mp hrest
        obtain ⟨rfl, rfl⟩ := Prod.mk.inj (Option.some.inj hsome)
        exact ⟨run', rfl, .inr ⟨hbefore, hrun, rfl⟩⟩

/-- What holds of a pair put into nothing, and is kept when it is put in below or above the pair in
the middle, holds of every list that a pair is put into. -/
theorem insertByKey_induction {motive : List (Scalar × α) → List (Scalar × α) → Prop}
    (nil : motive [] [(key, x)])
    (below : ∀ low middle high next, key.lt? middle.1 = some true →
      insertByKey key x low = some next → motive low next →
      motive (low ++ middle :: high) (next ++ middle :: high))
    (above : ∀ low middle high next, key.lt? middle.1 = some false →
      insertByKey key x high = some next → motive high next →
      motive (low ++ middle :: high) (low ++ middle :: next))
    (h : insertByKey key x sorted = some out) : motive sorted out := by
  induction hn : sorted.length using Nat.strongRecOn generalizing sorted out with
  | ind n ih =>
    subst hn
    rw [insertByKey] at h
    split at h
    · next hdrop =>
      have hlength := congrArg List.length hdrop
      simp only [List.length_drop, List.length_nil] at hlength
      have hnil : sorted = [] := List.eq_nil_of_length_eq_zero (by omega)
      rw [hnil, ← Option.some.inj h]
      exact nil
    · next k y high hdrop =>
      generalize hlow : sorted.take (sorted.length / 2) = low at h
      have hsplit : sorted = low ++ (k, y) :: high := by
        rw [← hlow, ← hdrop, List.take_append_drop]
      have hlength : sorted.length = low.length + (high.length + 1) := by simp [hsplit]
      obtain ⟨before, hbefore, hrest⟩ := Option.bind_eq_some_iff.mp h
      rw [hsplit]
      cases before with
      | true =>
        obtain ⟨next, hnext, hout⟩ := Option.bind_eq_some_iff.mp hrest
        rw [← Option.some.inj hout]
        exact below low (k, y) high next hbefore hnext (ih _ (by omega) hnext rfl)
      | false =>
        obtain ⟨next, hnext, hout⟩ := Option.bind_eq_some_iff.mp hrest
        rw [← Option.some.inj hout]
        exact above low (k, y) high next hbefore hnext (ih _ (by omega) hnext rfl)

/-- What holds of the first run and what is behind it, and is kept when one pair more is put in,
holds at the end. -/
theorem sortByKey_induction {motive : List (Scalar × α) → List (Scalar × α) → Prop}
    (first : ∀ run rest, firstRun pairs = some (run, rest) → motive run rest)
    (insert : ∀ run p rest next, insertByKey p.1 p.2 run = some next →
      motive run (p :: rest) → motive next rest)
    (h : sortByKey pairs = some sorted) : motive sorted [] := by
  obtain ⟨⟨run, rest⟩, hfirst, hinsert⟩ := Option.bind_eq_some_iff.mp h
  have hrun := first run rest hfirst
  dsimp only at hinsert
  clear hfirst
  induction rest generalizing run with
  | nil =>
    obtain rfl := Option.some.inj hinsert
    exact hrun
  | cons p rest ih =>
    rw [List.foldlM_cons] at hinsert
    obtain ⟨next, hnext, hrest⟩ := Option.bind_eq_some_iff.mp hinsert
    exact ih next hrest (insert run p rest next hnext hrun)

/-! ### Sorting only moves -/

/-- A run is cut off at its end. -/
theorem append_of_splitRun (h : splitRun goesOn key pairs = some (run, rest)) :
    run ++ rest = pairs := by
  induction pairs generalizing key run with
  | nil =>
    obtain ⟨rfl, rfl⟩ := Prod.mk.inj (Option.some.inj h)
    rfl
  | cons p pairs ih =>
    obtain ⟨-, rfl, rfl⟩ | ⟨run', -, hrun, rfl⟩ := splitRun_cons_cases h
    · rfl
    · rw [List.cons_append, ih hrun]

theorem perm_of_firstRun (h : firstRun pairs = some (run, rest)) : (run ++ rest).Perm pairs := by
  obtain ⟨-, rfl, rfl⟩ | ⟨first, second, tail, run', rfl, ⟨-, hrun, rfl⟩ | ⟨-, hrun, rfl⟩⟩ :=
    firstRun_cases h
  · rw [List.append_nil]
  · rw [← append_of_splitRun hrun]
    exact (List.reverse_perm (first :: second :: run')).append_right rest
  · rw [← append_of_splitRun hrun]
    rfl

theorem perm_of_insertByKey (h : insertByKey key x sorted = some out) :
    out.Perm ((key, x) :: sorted) := by
  refine insertByKey_induction (motive := fun sorted out => out.Perm ((key, x) :: sorted)) (.refl _)
    (fun low middle high next _ _ ih => ?_) (fun low middle high next _ _ ih => ?_) h
  · exact ih.append_right (middle :: high)
  · have hswap := (ih.cons middle).trans (List.Perm.swap (key, x) middle high)
    exact (hswap.append_left low).trans List.perm_middle

/-- **Sorting neither loses nor adds a pair**, whatever the keys are. -/
theorem sortByKey_perm (h : sortByKey pairs = some sorted) : sorted.Perm pairs := by
  have hperm : (sorted ++ []).Perm pairs := by
    refine sortByKey_induction (motive := fun run rest => (run ++ rest).Perm pairs)
      (fun _ _ => perm_of_firstRun) (fun run p rest next hnext hrun => ?_) h
    exact ((perm_of_insertByKey hnext).append_right rest).trans (List.perm_middle.symm.trans hrun)
  rwa [List.append_nil] at hperm

/-! ### What has been sorted is comparable -/

theorem comparable_of_splitRun (hgoes : ∀ a b on, goesOn a b = some on → Comparable a b)
    (h : splitRun goesOn key pairs = some (run, rest)) : Sortable (key :: run.map (·.1)) := by
  induction pairs generalizing key run with
  | nil =>
    obtain ⟨rfl, rfl⟩ := Prod.mk.inj (Option.some.inj h)
    exact List.pairwise_singleton _ _
  | cons p pairs ih =>
    obtain ⟨-, rfl, rfl⟩ | ⟨run', hon, hrun, rfl⟩ := splitRun_cons_cases h
    · exact List.pairwise_singleton _ _
    · exact (ih hrun).cons (hgoes _ _ _ hon)

theorem comparable_of_firstRun (h : firstRun pairs = some (run, rest)) :
    Sortable (run.map (·.1)) := by
  obtain ⟨hshort, rfl, -⟩ | ⟨first, second, tail, run', rfl, hruns⟩ := firstRun_cases h
  · exact sortable_of_length_le (by rwa [List.length_map])
  obtain ⟨hbefore, hrun, rfl⟩ | ⟨hbefore, hrun, rfl⟩ := hruns
  · have htail := comparable_of_splitRun (fun _ _ _ hon => (exists_lt?_iff.mp ⟨_, hon⟩).symm) hrun
    have hall : Sortable ((first :: second :: run').map (·.1)) :=
      htail.cons (exists_lt?_iff.mp ⟨_, hbefore⟩).symm
    exact hall.of_perm ((List.reverse_perm _).symm.map _)
  · refine Sortable.cons (comparable_of_splitRun (fun a b on hon => ?_) hrun)
      (exists_lt?_iff.mp ⟨_, hbefore⟩).symm
    obtain ⟨before, hon, -⟩ := Option.map_eq_some_iff.mp hon
    exact (exists_lt?_iff.mp ⟨_, hon⟩).symm

/-- A key that is put into its place is compared with the key in the middle, and so it is comparable
with all of them. -/
theorem comparable_of_insertByKey (h : insertByKey key x sorted = some out)
    (hsorted : Sortable (sorted.map (·.1))) : Sortable (out.map (·.1)) := by
  have hmiddle (low high : List (Scalar × α)) (middle : Scalar × α)
      (hall : Sortable ((low ++ middle :: high).map (·.1))) (hkey : Comparable key middle.1) :
      Sortable (key :: (low ++ middle :: high).map (·.1)) := by
    have hmoved : Sortable (middle.1 :: (low ++ high).map (·.1)) :=
      hall.of_perm (List.perm_middle.map _)
    exact (hmoved.cons hkey).of_perm ((List.perm_middle.symm.map _).cons key)
  have hall : Sortable (((key, x) :: sorted).map (·.1)) := by
    refine insertByKey_induction (motive := fun sorted _ => Sortable (sorted.map (·.1)) →
        Sortable (key :: sorted.map (·.1))) (fun _ => List.pairwise_singleton _ _)
      (fun low middle high _ hbefore _ _ hall => ?_)
      (fun low middle high _ hbefore _ _ hall => ?_) h hsorted
    · exact hmiddle low high middle hall (exists_lt?_iff.mp ⟨_, hbefore⟩)
    · exact hmiddle low high middle hall (exists_lt?_iff.mp ⟨_, hbefore⟩)
  exact hall.of_perm ((perm_of_insertByKey h).symm.map _)

theorem sortable_of_sortByKey (h : sortByKey pairs = some sorted) :
    Sortable (pairs.map (·.1)) := by
  refine Sortable.of_perm ?_ ((sortByKey_perm h).map _)
  exact sortByKey_induction (motive := fun run _ => Sortable (run.map (·.1)))
    (fun _ _ => comparable_of_firstRun)
    (fun _ _ _ _ hnext hrun => comparable_of_insertByKey hnext hrun) h

end Steps

/-! ### Every comparison of sorting has an answer -/

theorem exists_splitRun {goesOn : Scalar → Scalar → Option Bool}
    (hgoes : ∀ a b, Comparable a b → ∃ on, goesOn a b = some on)
    (hkeys : Sortable (key :: pairs.map (·.1))) :
    ∃ run rest, splitRun goesOn key pairs = some (run, rest) := by
  induction pairs generalizing key with
  | nil => exact ⟨[], [], rfl⟩
  | cons p pairs ih =>
    obtain ⟨k, y⟩ := p
    obtain ⟨hhead, htail⟩ := List.pairwise_cons.mp hkeys
    obtain ⟨on, hon⟩ := hgoes key k (hhead k (by simp))
    rw [splitRun, hon]
    cases on with
    | false => exact ⟨[], (k, y) :: pairs, rfl⟩
    | true =>
      obtain ⟨run, rest, hrun⟩ := ih htail
      exact ⟨(k, y) :: run, rest, by simp [hrun]⟩

theorem exists_firstRun (hkeys : Sortable (pairs.map (·.1))) :
    ∃ run rest, firstRun pairs = some (run, rest) := by
  match pairs, hkeys with
  | [], _ => exact ⟨[], [], rfl⟩
  | [p], _ => exact ⟨[p], [], rfl⟩
  | (k, y) :: (l, z) :: pairs, hkeys =>
    obtain ⟨hhead, htail⟩ := List.pairwise_cons.mp hkeys
    obtain ⟨before, hbefore⟩ := exists_lt?_iff.mpr (hhead l (by simp)).symm
    rw [firstRun, hbefore]
    cases before with
    | true =>
      obtain ⟨run, rest, hrun⟩ :=
        exists_splitRun (fun a b hab => exists_lt?_iff.mpr hab.symm) htail
      exact ⟨((k, y) :: (l, z) :: run).reverse, rest, by simp [hrun]⟩
    | false =>
      have hgoes (a b : Scalar) (hab : Comparable a b) :
          ∃ on, (b.lt? a).map not = some on := by
        obtain ⟨on, hon⟩ := exists_lt?_iff.mpr hab.symm
        exact ⟨!on, by rw [hon]; rfl⟩
      obtain ⟨run, rest, hrun⟩ := exists_splitRun hgoes htail
      exact ⟨(k, y) :: (l, z) :: run, rest, by simp [hrun]⟩

theorem exists_insertByKey (hkeys : ∀ p ∈ sorted, Comparable key p.1) :
    ∃ out, insertByKey key x sorted = some out := by
  induction hn : sorted.length using Nat.strongRecOn generalizing sorted with
  | ind n ih =>
    subst hn
    rw [insertByKey]
    split
    · exact ⟨[(key, x)], rfl⟩
    · next k y above hdrop =>
      have hlength := congrArg List.length hdrop
      simp only [List.length_drop, List.length_cons] at hlength
      have hmem (p : Scalar × α) (hp : p ∈ (k, y) :: above) : p ∈ sorted :=
        List.mem_of_mem_drop (hdrop ▸ hp)
      obtain ⟨before, hbefore⟩ := exists_lt?_iff.mpr (hkeys (k, y) (hmem _ (by simp)))
      rw [hbefore]
      cases before with
      | true =>
        obtain ⟨out, hout⟩ := ih (sorted.take (sorted.length / 2)).length
          (by rw [List.length_take]; omega) (fun p hp => hkeys p (List.mem_of_mem_take hp)) rfl
        exact ⟨out ++ (k, y) :: above, by simp [hout]⟩
      | false =>
        obtain ⟨out, hout⟩ := ih above.length (by omega)
          (fun p hp => hkeys p (hmem p (by simp [hp]))) rfl
        exact ⟨sorted.take (sorted.length / 2) ++ (k, y) :: out, by simp [hout]⟩

/-- **Pairs can be sorted if and only if every two of their keys are comparable.** -/
theorem exists_sortByKey_iff :
    (∃ sorted, sortByKey pairs = some sorted) ↔ Sortable (pairs.map (·.1)) := by
  refine ⟨fun ⟨sorted, h⟩ => sortable_of_sortByKey h, fun hkeys => ?_⟩
  obtain ⟨run, rest, hfirst⟩ := exists_firstRun hkeys
  have hmoved : Sortable ((run ++ rest).map (·.1)) :=
    hkeys.of_perm ((perm_of_firstRun hfirst).symm.map _)
  rw [sortByKey, hfirst]
  simp only [Option.bind_eq_bind, Option.bind_some]
  clear hfirst hkeys
  induction rest generalizing run with
  | nil => exact ⟨run, rfl⟩
  | cons p rest ih =>
    have hfront : Sortable (((p :: rest) ++ run).map (·.1)) :=
      hmoved.of_perm (List.perm_append_comm.map _)
    have hkey : ∀ q ∈ run, Comparable p.1 q.1 := fun q hq =>
      (List.pairwise_cons.mp hfront).1 q.1 (List.mem_map_of_mem (List.mem_append_right _ hq))
    obtain ⟨next, hnext⟩ : ∃ next, insertByKey p.1 p.2 run = some next := exists_insertByKey hkey
    rw [List.foldlM_cons, hnext]
    refine ih next (hmoved.of_perm (List.Perm.map _ ?_))
    exact List.perm_middle.trans ((perm_of_insertByKey hnext).symm.append_right rest)

/-! ### Texts ascend -/

section Texts

variable {goesOn : Scalar → Scalar → Option Bool} {run rest out : List (Scalar × α)}

/-- A run whose members stand in a transitive relation, each to the next one, stands in it
throughout. -/
theorem pairwise_of_splitRun {R : String → String → Prop}
    (htrans : ∀ {s t u}, R s t → R t u → R s u)
    (hgoes : ∀ a b, a.isText = true → b.isText = true → goesOn a b = some true →
      R a.name b.name)
    (hkey : key.isText = true) (hpairs : ∀ p ∈ pairs, p.1.isText = true)
    (h : splitRun goesOn key pairs = some (run, rest)) :
    (∀ p ∈ run, R key.name p.1.name) ∧ run.Pairwise fun p q => R p.1.name q.1.name := by
  induction pairs generalizing key run with
  | nil =>
    obtain ⟨rfl, rfl⟩ := Prod.mk.inj (Option.some.inj h)
    exact ⟨by simp, .nil⟩
  | cons p pairs ih =>
    obtain ⟨hp, hpairs⟩ := List.forall_mem_cons.mp hpairs
    obtain ⟨-, rfl, rfl⟩ | ⟨run', hon, hrun, rfl⟩ := splitRun_cons_cases h
    · exact ⟨by simp, .nil⟩
    · have hR : R key.name p.1.name := hgoes key p.1 hkey hp hon
      obtain ⟨hhead, htail⟩ := ih hp hpairs hrun
      exact ⟨List.forall_mem_cons.mpr ⟨hR, fun q hq => htrans hR (hhead q hq)⟩, .cons hhead htail⟩

theorem name_lt_of_lt? {a b : Scalar} (ha : a.isText = true) (hb : b.isText = true)
    (h : a.lt? b = some true) : a.name < b.name :=
  of_decide_eq_true (Option.some.inj ((lt?_of_isText ha hb).symm.trans h))

theorem name_le_of_lt? {a b : Scalar} (ha : a.isText = true) (hb : b.isText = true)
    (h : a.lt? b = some false) : b.name ≤ a.name :=
  String.not_lt.mp (of_decide_eq_false (Option.some.inj ((lt?_of_isText ha hb).symm.trans h)))

theorem ascending_of_firstRun (hpairs : ∀ p ∈ pairs, p.1.isText = true)
    (h : firstRun pairs = some (run, rest)) : Ascending run := by
  obtain ⟨hshort, rfl, -⟩ | ⟨first, second, tail, run', rfl, hruns⟩ := firstRun_cases h
  · cases run with
    | nil => exact .nil
    | cons p run =>
      obtain rfl : run = [] := by simpa using hshort
      exact List.pairwise_singleton _ _
  obtain ⟨hfirst, hrest⟩ := List.forall_mem_cons.mp hpairs
  obtain ⟨hsecond, htail⟩ := List.forall_mem_cons.mp hrest
  obtain ⟨hbefore, hrun, rfl⟩ | ⟨hbefore, hrun, rfl⟩ := hruns
  · -- The run descends, strictly, and is reversed.
    have hlt := name_lt_of_lt? hsecond hfirst hbefore
    obtain ⟨hhead, hdescends⟩ := pairwise_of_splitRun (R := fun s t => t < s)
      (fun hst htu => String.lt_trans htu hst) (fun a b ha hb => name_lt_of_lt? hb ha) hsecond htail
      hrun
    have hall : (first :: second :: run').Pairwise fun p q => q.1.name < p.1.name :=
      .cons (List.forall_mem_cons.mpr ⟨hlt, fun p hp => String.lt_trans (hhead p hp) hlt⟩)
        (.cons hhead hdescends)
    exact List.pairwise_reverse.mpr (hall.imp Std.le_of_lt)
  · have hle := name_le_of_lt? hsecond hfirst hbefore
    have hgoes (a b : Scalar) (ha : a.isText = true) (hb : b.isText = true)
        (hon : (b.lt? a).map not = some true) : a.name ≤ b.name := by
      obtain ⟨before, hon, hnot⟩ := Option.map_eq_some_iff.mp hon
      obtain rfl := (Bool.not_eq_true' before).mp hnot
      exact name_le_of_lt? hb ha hon
    obtain ⟨hhead, hascends⟩ :=
      pairwise_of_splitRun (R := fun s t => s ≤ t) String.le_trans hgoes hsecond htail hrun
    exact .cons (List.forall_mem_cons.mpr ⟨hle, fun p hp => String.le_trans hle (hhead p hp)⟩)
      (.cons hhead hascends)

theorem ascending_of_insertByKey (hkey : key.isText = true)
    (htexts : ∀ p ∈ sorted, p.1.isText = true) (hsorted : Ascending sorted)
    (h : insertByKey key x sorted = some out) : Ascending out := by
  refine insertByKey_induction (motive := fun sorted out =>
      (∀ p ∈ sorted, p.1.isText = true) → Ascending sorted → Ascending out)
    (fun _ _ => List.pairwise_singleton _ _)
    (fun low middle high next hbefore hnext ih htexts hsorted => ?_)
    (fun low middle high next hbefore hnext ih htexts hsorted => ?_) h htexts hsorted
  -- The search goes on below the middle or above it, and what was left out stays in order.
  all_goals
    obtain ⟨hlow, hhigh, hcross⟩ := List.pairwise_append.mp hsorted
    obtain ⟨htextsLow, htextsHigh⟩ := List.forall_mem_append.mp htexts
    obtain ⟨hmiddle, htextsAbove⟩ := List.forall_mem_cons.mp htextsHigh
    have hmoves (q : Scalar × α) (hq : q ∈ next) := (perm_of_insertByKey hnext).mem_iff.mp hq
  · refine List.pairwise_append.mpr ⟨ih htextsLow hlow, hhigh, fun p hp q hq => ?_⟩
    rcases List.mem_cons.mp (hmoves p hp) with rfl | hp
    · exact String.le_trans (Std.le_of_lt (name_lt_of_lt? hkey hmiddle hbefore))
        (Ascending.le_of_mem hhigh hq)
    · exact hcross p hp q hq
  · obtain ⟨hhead, habove⟩ := List.pairwise_cons.mp hhigh
    have hnextHigh : Ascending (middle :: next) := by
      refine .cons (fun q hq => ?_) (ih htextsAbove habove)
      rcases List.mem_cons.mp (hmoves q hq) with rfl | hq
      · exact name_le_of_lt? hkey hmiddle hbefore
      · exact hhead q hq
    refine List.pairwise_append.mpr ⟨hlow, hnextHigh, fun p hp q hq => ?_⟩
    exact String.le_trans (hcross p hp middle List.mem_cons_self) (hnextHigh.le_of_mem hq)

theorem ascending_of_sortByKey (hpairs : ∀ p ∈ pairs, p.1.isText = true)
    (h : sortByKey pairs = some sorted) : Ascending sorted := by
  refine (sortByKey_induction (motive := fun run rest =>
    (∀ p ∈ run ++ rest, p.1.isText = true) ∧ Ascending run) (fun run rest hfirst => ?_)
    (fun run p rest next hnext hrun => ?_) h).2
  · exact ⟨fun p hp => hpairs p ((perm_of_firstRun hfirst).mem_iff.mp hp),
      ascending_of_firstRun hpairs hfirst⟩
  · obtain ⟨htexts, hascends⟩ := hrun
    have hmove : (next ++ rest).Perm (run ++ p :: rest) :=
      ((perm_of_insertByKey hnext).append_right rest).trans List.perm_middle.symm
    exact ⟨fun q hq => htexts q (hmove.mem_iff.mp hq),
      ascending_of_insertByKey (htexts p (by simp))
        (fun q hq => htexts q (List.mem_append_left _ hq)) hascends hnext⟩

end Texts

/-- **Pairs whose keys are texts can be sorted**: sorting only moves them, and their names ascend
afterwards. -/
theorem sortByKey_of_isText (hpairs : ∀ p ∈ pairs, p.1.isText = true) :
    ∃ out, sortByKey pairs = some out ∧ out.Perm pairs ∧ Ascending out := by
  have hkeys : Sortable (pairs.map (·.1)) := sortable_of_isText (by simpa using hpairs)
  obtain ⟨out, hout⟩ := exists_sortByKey_iff.mpr hkeys
  exact ⟨out, hout, sortByKey_perm hout, ascending_of_sortByKey hpairs hout⟩

/-! ### There is one ascending arrangement -/

/-- Where no text stands twice, two ascending arrangements of the same pairs are equal. -/
theorem Ascending.eq_of_perm (hpairs : Ascending pairs) (hothers : Ascending others)
    (hperm : pairs.Perm others) (htexts : ∀ p ∈ pairs, p.1.isText = true)
    (hnodup : (pairs.map (·.1)).Nodup) : pairs = others := by
  refine List.Perm.eq_of_pairwise (fun p q hp hq hpq hqp => ?_) hpairs hothers hperm
  have hq : q ∈ pairs := hperm.mem_iff.mpr hq
  have hkey : p.1 = q.1 := by
    rw [eq_str_name (htexts p hp), eq_str_name (htexts q hq), String.le_antisymm hpq hqp]
  exact List.inj_on_of_nodup_map hnodup hp hq hkey

/-- **Sorting finds the ascending arrangement**, if the keys are texts and none stands twice. -/
theorem sortByKey_eq_some_iff (htexts : ∀ p ∈ pairs, p.1.isText = true)
    (hnodup : (pairs.map (·.1)).Nodup) :
    sortByKey pairs = some sorted ↔ sorted.Perm pairs ∧ Ascending sorted := by
  obtain ⟨out, hout, hperm, hascends⟩ := sortByKey_of_isText htexts
  constructor
  · intro h
    obtain rfl := Option.some.inj (hout.symm.trans h)
    exact ⟨hperm, hascends⟩
  · rintro ⟨hsorted, hsortedascends⟩
    have hpairs (p : Scalar × α) (hp : p ∈ out) : p.1.isText = true :=
      htexts p (hperm.mem_iff.mp hp)
    have hmap : (out.map (·.1)).Nodup := (hperm.map _).nodup_iff.mpr hnodup
    rw [hout, hascends.eq_of_perm hsortedascends (hperm.trans hsorted.symm) hpairs hmap]

/-- The order before sorting does not matter. -/
theorem sortByKey_congr_perm (htexts : ∀ p ∈ pairs, p.1.isText = true)
    (hnodup : (pairs.map (·.1)).Nodup) (hperm : pairs.Perm others) :
    sortByKey pairs = sortByKey others := by
  obtain ⟨out, hout, hmoved, hascends⟩ := sortByKey_of_isText htexts
  have hothers (p : Scalar × α) (hp : p ∈ others) : p.1.isText = true :=
    htexts p (hperm.mem_iff.mpr hp)
  rw [hout, eq_comm, sortByKey_eq_some_iff hothers ((hperm.map _).nodup_iff.mp hnodup)]
  exact ⟨hmoved.trans hperm, hascends⟩

end Scalar

end ApiSchema
