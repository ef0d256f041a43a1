/-
Decoding from left to right.

Decoding makes two passes over a segment, and each of them replaces one escape
everywhere.  Passes that follow each other are in general not one pass, because the
second one also finds what the first one has written.  Here it does not.  The first
pass writes slashes, the second one looks for tildes with a zero behind them, and
`head?_unescapeWith` says that no pass changes whether a zero stands in front of a text.
So the tildes that start `~0` are the same ones before and after the first pass, and
the two passes together read each escape where it stands.

The order matters: with the passes exchanged, the tilde that is written for `~0` may
come to stand in front of a one.
-/
import ApiSchema.Proofs.Pointer.Canonical

namespace ApiSchema.Pointer

variable {digit c d : Char} {cs rest : List Char}

/-- Reads a segment once, from left to right.  A tilde in front of a zero or of a one is read
together with it, and every other character stands for itself. -/
def readEscapes : List Char → List Char
  | '~' :: '0' :: rest => '~' :: readEscapes rest
  | '~' :: '1' :: rest => '/' :: readEscapes rest
  | c :: rest => c :: readEscapes rest
  | [] => []

/-! ### What a pass leaves in front -/

/-- A pass neither brings a character to the front nor takes it away from there, unless it is a
tilde or what the pass writes. -/
theorem head?_unescapeWith (htilde : d ≠ '~') (hc : d ≠ c) :
    (unescapeWith digit c cs).head? = some d ↔ cs.head? = some d := by
  have hfront (rest rest' : List Char) (e : Char) (he : d ≠ e) :
      (c :: rest).head? = some d ↔ (e :: rest').head? = some d := by
    simp [Ne.symm hc, Ne.symm he]
  unfold unescapeWith
  split
  · next e rest =>
    split
    · exact hfront _ _ _ htilde
    · simp
  · simp
  · simp

/-- A tilde stands for itself unless the digit of the pass stands behind it. -/
theorem unescapeWith_tilde (h : rest.head? ≠ some digit) :
    unescapeWith digit c ('~' :: rest) = '~' :: unescapeWith digit c rest := by
  cases rest with
  | nil => rfl
  | cons d rest =>
    apply unescapeWith_tilde_of_ne
    intro hd
    exact h (congrArg some hd)

theorem decode_tilde (hzero : rest.head? ≠ some '0') (hone : rest.head? ≠ some '1') :
    decode ('~' :: rest) = '~' :: decode rest := by
  have hfirst : (unescapeWith '1' '/' rest).head? ≠ some '0' := by
    intro h
    exact hzero ((head?_unescapeWith (by decide) (by decide)).mp h)
  rw [decode, unescapeWith_tilde hone, unescapeWith_tilde hfirst, decode]

/-! ### Both passes -/

/-- The two passes read each escape where it stands. -/
theorem decode_eq_readEscapes (cs : List Char) : decode cs = readEscapes cs := by
  fun_induction readEscapes cs with
  | case1 rest ih => rw [decode_zero, ih]
  | case2 rest ih => rw [decode_one, ih]
  | case3 c rest hzero hone ih =>
    rw [← ih]
    by_cases htilde : c = '~'
    · obtain rfl := htilde
      -- A tilde that starts no escape: neither digit stands behind it.
      apply decode_tilde
      · intro h
        obtain ⟨after, hafter⟩ := List.head?_eq_some_iff.mp h
        exact hzero after rfl hafter
      · intro h
        obtain ⟨after, hafter⟩ := List.head?_eq_some_iff.mp h
        exact hone after rfl hafter
    · exact decode_cons_of_ne htilde
  | case4 => rfl

/-- **A pointer is cut first and decoded afterwards, from left to right.**  What stands behind `#/`
is cut at its slashes, and of the slashes that decoding writes none cuts, so there is one segment
more than there are slashes.  The two passes over a piece come to one reading of its escapes, and a
tilde that starts none stands for itself. -/
theorem parse?_leftToRight :
    (∀ cs, unescapeWith '0' '~' (unescapeWith '1' '/' cs) = readEscapes cs) ∧
    ∀ body : String, ∃ p, parse? (localStart ++ body) = some p ∧
      p.segments = (body.toList.splitOn '/').map (fun piece => String.ofList (readEscapes piece)) ∧
      p.segments.length = body.toList.count '/' + 1 := by
  refine ⟨decode_eq_readEscapes, fun body => ?_⟩
  have htext : (localStart ++ body).toList = '#' :: '/' :: body.toList := String.toList_append
  refine ⟨_, parse?_eq_some_iff.mpr ⟨body.toList, htext, rfl⟩, ?_, ?_⟩
  · simp only [Text.pieces_eq_splitOn, decode_eq_readEscapes]
  · rw [List.length_map, Text.length_pieces]

example : readEscapes "~~1~01~2~".toList = "~/~1~2~".toList := by decide

/-- With the passes exchanged, `~01` would be a slash. -/
example : unescapeWith '1' '/' (unescapeWith '0' '~' "~01".toList) ≠ readEscapes "~01".toList := by
  decide

end ApiSchema.Pointer
