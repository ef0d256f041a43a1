/-
How alike two texts are.

The longest run that two texts share is set aside, then the longest run that
their left sides share and the longest that their right sides share, and so on
until nothing is shared.  The texts are alike if the runs make up three fifths of
both texts together.  That is how a word that is not known finds the known words
that may have been meant.
-/

namespace ApiSchema.Text

/-- A run that two texts share: where it starts in each of them, and how long it is. -/
structure SharedRun where
  /-- The characters of the first text in front of it. -/
  first : Nat
  /-- The characters of the second text in front of it. -/
  second : Nat
  /-- Its length. -/
  length : Nat

/-- The length of the longest common beginning. -/
def commonLength : List Char → List Char → Nat
  | a :: as, b :: bs => if a = b then commonLength as bs + 1 else 0
  | _, _ => 0

/-- The longest run that two texts share.  Of several the earliest in the first text counts, and of
those the earliest in the second. -/
def longestRun (a b : List Char) : SharedRun :=
  (List.range a.length).foldl (fun best i =>
    (List.range b.length).foldl (fun best j =>
      let length := commonLength (a.drop i) (b.drop j)
      if best.length < length then ⟨i, j, length⟩ else best) best) ⟨0, 0, 0⟩

/-- The length of all shared runs together.  Each step takes a run out of the first text, so that
its length bounds their number. -/
def sharedLength : Nat → List Char → List Char → Nat
  | 0, _, _ => 0
  | fuel + 1, a, b =>
    let run := longestRun a b
    if run.length = 0 then 0
    else run.length + sharedLength fuel (a.take run.first) (b.take run.second) +
      sharedLength fuel (a.drop (run.first + run.length)) (b.drop (run.second + run.length))

/-- How much two texts share: the length of their shared runs, and the length of both. -/
structure Likeness where
  /-- The length of the shared runs. -/
  shared : Nat
  /-- The length of both texts together. -/
  total : Nat

/-- How much a known text shares with a word. -/
def likeness (known word : String) : Likeness where
  shared := sharedLength known.length known.toList word.toList
  total := known.length + word.length

/-- The texts share enough to be taken for each other. -/
def Likeness.isClose (l : Likeness) : Bool := 3 * l.total ≤ 10 * l.shared

/-- The texts are of lengths at which they may be close: they share no more than the shorter one. -/
def mayBeClose (known word : String) : Bool :=
  Likeness.isClose ⟨min known.length word.length, known.length + word.length⟩

/-- Puts a text in front of those that are less like the word, and of those equally like it in front
of the lesser ones. -/
def insertByLikeness (known : String) (l : Likeness) :
    List (String × Likeness) → List (String × Likeness)
  | [] => [(known, l)]
  | (other, m) :: rest =>
    let mine := l.shared * m.total
    let its := m.shared * l.total
    if its < mine ∨ (its = mine ∧ other < known) then (known, l) :: (other, m) :: rest
    else (other, m) :: insertByLikeness known l rest

/-- The most texts that are offered for a word. -/
def mostOffers : Nat := 3

/-- The known texts that are most like a word, as far as they are like it at all. -/
def closest (word : String) (known : List String) : List String :=
  let close := (known.filter (mayBeClose · word)).foldl (fun sorted k =>
    let l := likeness k word
    if l.isClose then insertByLikeness k l sorted else sorted) []
  (close.take mostOffers).map (·.1)

example : closest "appel" ["ape", "apple", "peach", "puppy"] = ["apple", "ape"] := by
  decide +kernel

end ApiSchema.Text
