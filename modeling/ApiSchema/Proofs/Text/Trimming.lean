/-
What trimming leaves.

Removing the longest run of characters at an end is described from its result: a run of
such characters comes off, and what is left does not end in another one.  The two
together leave no choice.
-/
import ApiSchema.Text.Blank
import Mathlib.Data.List.TakeWhile

namespace ApiSchema.Text

variable {p : Char → Bool} {cs ds : List Char}

/-- All that is cut off behind `ds` is unwanted, and `ds` does not end in something unwanted. -/
structure TrimmedBehind (p : Char → Bool) (cs ds : List Char) : Prop where
  /-- What stands behind is unwanted. -/
  cut : ∃ behind, cs = ds ++ behind ∧ ∀ c ∈ behind, p c = true
  /-- The last character is wanted. -/
  last : ∀ c, ds.getLast? = some c → p c = false

/-- All that is cut off around `ds` is unwanted, and `ds` neither starts nor ends in something
unwanted. -/
structure TrimmedAround (p : Char → Bool) (cs ds : List Char) : Prop where
  /-- What stands in front and behind is unwanted. -/
  cut : ∃ front behind, cs = front ++ ds ++ behind ∧ (∀ c ∈ front, p c = true) ∧
    ∀ c ∈ behind, p c = true
  /-- The first character is wanted. -/
  first : ∀ c, ds.head? = some c → p c = false
  /-- The last character is wanted. -/
  last : ∀ c, ds.getLast? = some c → p c = false

theorem dropWhile_eq_iff : cs.dropWhile p = ds ↔
    (∃ front, cs = front ++ ds ∧ ∀ c ∈ front, p c = true) ∧ ∀ c, ds.head? = some c → p c = false := by
  constructor
  · rintro rfl
    have hhead := List.head?_dropWhile_not p cs
    refine ⟨⟨cs.takeWhile p, List.takeWhile_append_dropWhile.symm, fun c hc => ?_⟩, fun c hc => ?_⟩
    · exact List.mem_takeWhile_imp hc
    · rw [hc] at hhead
      exact hhead
  · rintro ⟨⟨front, rfl, hfront⟩, hfirst⟩
    rw [List.dropWhile_append_of_pos hfront]
    cases ds with
    | nil => rfl
    | cons d ds => rw [List.dropWhile_cons, hfirst d rfl, if_neg (by decide)]

theorem dropTrailing_eq_iff : dropTrailing p cs = ds ↔ TrimmedBehind p cs ds := by
  rw [dropTrailing, List.reverse_eq_iff, dropWhile_eq_iff, List.head?_reverse]
  constructor
  · rintro ⟨⟨front, hsplit, hfront⟩, hlast⟩
    refine ⟨⟨front.reverse, ?_, by simpa using hfront⟩, hlast⟩
    simpa using congrArg List.reverse hsplit
  · rintro ⟨⟨behind, rfl, hbehind⟩, hlast⟩
    exact ⟨⟨behind.reverse, List.reverse_append, by simpa using hbehind⟩, hlast⟩

theorem trimWhere_eq_iff : trimWhere p cs = ds ↔ TrimmedAround p cs ds := by
  rw [trimWhere, dropTrailing_eq_iff]
  constructor
  · rintro ⟨⟨behind, hbehind, hall⟩, hlast⟩
    obtain ⟨⟨front, hsplit, hfront⟩, hfirst⟩ := dropWhile_eq_iff.mp hbehind
    refine ⟨⟨front, behind, by rw [hsplit, List.append_assoc], hfront, hall⟩, fun c hc => ?_, hlast⟩
    exact hfirst c (by rw [List.head?_append, hc, Option.some_or])
  · rintro ⟨⟨front, behind, rfl, hfront, hbehind⟩, hfirst, hlast⟩
    refine ⟨?_, hlast⟩
    rw [List.append_assoc, List.dropWhile_append_of_pos hfront]
    cases ds with
    | nil =>
      -- Nothing is left, and then all of what stands behind goes with the first pass.
      exact ⟨[], by simpa using hbehind, by simp⟩
    | cons d ds =>
      rw [List.cons_append, List.dropWhile_cons, hfirst d rfl, if_neg (by decide)]
      exact ⟨behind, rfl, hbehind⟩

end ApiSchema.Text
