/-
Texts cut at a separator.

There is always one piece more than there are separators, so an empty text is
one empty piece.
-/

namespace ApiSchema.Text

/-- The pieces of a text between the separators. -/
def pieces (separator : Char) : List Char → List (List Char)
  | [] => [[]]
  | c :: cs =>
    if c = separator then [] :: pieces separator cs
    else match pieces separator cs with
      | piece :: rest => (c :: piece) :: rest
      | [] => [[c]]

theorem pieces_ne_nil (separator : Char) (cs : List Char) : pieces separator cs ≠ [] := by
  cases cs with
  | nil => simp [pieces]
  | cons c cs =>
    simp only [pieces]
    split
    · simp
    · split <;> simp

/-- One piece more than there are separators. -/
theorem length_pieces (separator : Char) (cs : List Char) :
    (pieces separator cs).length = cs.count separator + 1 := by
  induction cs with
  | nil => rfl
  | cons c cs ih =>
    by_cases h : c = separator
    · simp [pieces, h, ih]
    · simp only [pieces, if_neg h, List.count_cons_of_ne h]
      rw [← ih]
      split
      · next heq => simp [heq]
      · next heq => exact absurd heq (pieces_ne_nil separator cs)

end ApiSchema.Text
