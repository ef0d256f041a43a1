/-
Scalars are read back from their JSON text.

The reader takes back what the writer makes of a scalar, whatever stands behind it.
There is one condition on that: a number ends where the characters of numbers end, so
behind it must not stand another one of them.

A text is taken back character by character, because the escape of a character is
read in one step.  A character above U+FFFF is written as two escapes, and the reader
takes both in that step.
-/
import ApiSchema.Json.Reader
import ApiSchema.Json.Writer

namespace ApiSchema.Json

open Numeral

/-! ### Hexadecimal digits -/

theorem hex_four (n : Nat) :
    Text.hex 4 n = [Nat.digitChar (n / 4096 % 16), Nat.digitChar (n / 256 % 16),
      Nat.digitChar (n / 16 % 16), Nat.digitChar (n % 16)] := by
  simp [Text.hex, Nat.div_div_eq_div_mul]

theorem hexValue?_digitChar {d : Nat} (h : d < 16) :
    Text.hexValue? (Nat.digitChar d) = some d := by
  have hall : ∀ d, d < 16 → Text.hexValue? (Nat.digitChar d) = some d := by decide
  exact hall d h

/-- Four hexadecimal digits are read back. -/
theorem ofHex?_hex {n : Nat} (h : n < 0x10000) : Text.ofHex? (Text.hex 4 n) = some n := by
  rw [hex_four, Text.ofHex?]
  simp only [List.foldlM_cons, List.foldlM_nil, hexValue?_digitChar (Nat.mod_lt _ (by decide)),
    Option.map_some, Option.bind_eq_bind, Option.bind_some, Option.pure_def, Option.some.injEq]
  omega

/-! ### Characters of a text -/

/-- The number of a character is no surrogate, and it is below 0x110000. -/
theorem toNat_cases (c : Char) : c.toNat < 0xd800 ∨ 0xe000 ≤ c.toNat ∧ c.toNat < 0x110000 := by
  rcases c.valid with h | ⟨hlow, hhigh⟩
  · exact .inl h
  · exact .inr ⟨hlow, hhigh⟩

theorem readEscape?_unitEscape {n : Nat} (hn : n < 0x10000) (hplain : n < 0xd800 ∨ 0xe000 ≤ n)
    (rest : List Char) :
    readEscape? ('u' :: (Text.hex 4 n ++ rest)) = some (Char.ofNat n, rest) := by
  have hhex := ofHex?_hex hn
  rw [hex_four] at hhex ⊢
  simp [readEscape?, hhex, hplain]

/-- A pair of surrogates is read as the character that it encodes. -/
theorem readEscape?_surrogates {high low : Nat} (hhigh : 0xd800 ≤ high ∧ high < 0xdc00)
    (hlow : 0xdc00 ≤ low ∧ low < 0xe000) (rest : List Char) :
    readEscape? ('u' :: (Text.hex 4 high ++ (unitEscape low ++ rest))) =
      some (Char.ofNat (0x10000 + (high - 0xd800) * 0x400 + (low - 0xdc00)), rest) := by
  have hhighhex := ofHex?_hex (n := high) (by omega)
  have hlowhex := ofHex?_hex (n := low) (by omega)
  have hsurrogate : ¬ (high < 0xd800 ∨ 0xe000 ≤ high) := by omega
  have hpair : ofSurrogates? high low =
      some (Char.ofNat (0x10000 + (high - 0xd800) * 0x400 + (low - 0xdc00))) :=
    if_pos ⟨hhigh.1, hhigh.2, hlow.1, hlow.2⟩
  rw [hex_four] at hhighhex hlowhex
  rw [unitEscape, hex_four, hex_four]
  simp only [List.cons_append, List.nil_append, readEscape?, hhighhex, hlowhex, hpair, hsurrogate,
    if_false, Option.bind_eq_bind, Option.bind_some, Option.pure_def]

/-- A character stands for itself, or it is a backslash with an escape behind it that is read as the
character. -/
theorem escapedChar_cases (c : Char) :
    (escapedChar c = [c] ∧ c ≠ '\x22' ∧ c ≠ '\\' ∧ 0x20 ≤ c.toNat) ∨
      ∃ tail, escapedChar c = '\\' :: tail ∧
        ∀ rest, readEscape? (tail ++ rest) = some (c, rest) := by
  have hshort (x : Char) (hread : ∀ rest, readEscape? (x :: rest) = some (c, rest)) :
      ∃ tail, ['\\', x] = '\\' :: tail ∧
        ∀ rest, readEscape? (tail ++ rest) = some (c, rest) := ⟨[x], rfl, hread⟩
  rw [escapedChar]
  -- Seven characters have a short escape.
  split
  · next h => exact .inr (hshort _ fun rest => by rw [h, readEscape?])
  split
  · next h => exact .inr (hshort _ fun rest => by rw [h, readEscape?])
  split
  · next h => exact .inr (hshort _ fun rest => by rw [h, readEscape?])
  split
  · next h => exact .inr (hshort _ fun rest => by rw [h, readEscape?])
  split
  · next h => exact .inr (hshort _ fun rest => by rw [h, readEscape?])
  split
  · next h => exact .inr (hshort _ fun rest => by rw [h, readEscape?])
  split
  · next h => exact .inr (hshort _ fun rest => by rw [h, readEscape?])
  split
  · next hquote hbackslash _ _ _ _ _ hplain =>
    exact .inl ⟨rfl, hquote, hbackslash, hplain.1⟩
  split
  · next hunit =>
    refine .inr ⟨_, rfl, fun rest => ?_⟩
    rw [List.cons_append, readEscape?_unitEscape hunit ((toNat_cases c).imp_right And.left),
      Char.ofNat_toNat]
  · next hunit =>
    -- Ten bits of what is above U+FFFF go to the one surrogate, ten to the other.
    obtain ⟨m, hm⟩ : ∃ m, c.toNat = 0x10000 + m := Nat.exists_eq_add_of_le (Nat.le_of_not_lt hunit)
    have hbound : m < 0x100000 := by
      have hcases := toNat_cases c
      omega
    have hsplit : 0x10000 + (0xd800 + m / 0x400 - 0xd800) * 0x400 +
        (0xdc00 + m % 0x400 - 0xdc00) = c.toNat := by
      omega
    have hhigh : 0xd800 ≤ 0xd800 + m / 0x400 ∧ 0xd800 + m / 0x400 < 0xdc00 := by omega
    have hlow : 0xdc00 ≤ 0xdc00 + m % 0x400 ∧ 0xdc00 + m % 0x400 < 0xe000 := by omega
    have hread (rest : List Char) := readEscape?_surrogates hhigh hlow rest
    rw [hsplit, Char.ofNat_toNat] at hread
    rw [hm, Nat.add_sub_cancel_left]
    refine .inr ⟨'u' :: (Text.hex 4 (0xd800 + m / 0x400) ++ unitEscape (0xdc00 + m % 0x400)), rfl,
      fun rest => ?_⟩
    rw [List.cons_append, List.append_assoc]
    exact hread rest

/-- An escaped character is read back in one step. -/
theorem readText?_escapedChar (c : Char) (fuel : Nat) (seen rest : List Char) :
    readText? (fuel + 1) seen (escapedChar c ++ rest) = readText? fuel (c :: seen) rest := by
  rcases escapedChar_cases c with
    ⟨hself, hquote, hbackslash, hprintable⟩ | ⟨tail, htail, hread⟩
  · rw [hself, List.cons_append, List.nil_append, readText?, if_neg hquote, if_neg hbackslash,
      if_neg (Nat.not_lt.mpr hprintable)]
  · rw [htail, List.cons_append, readText?, if_neg (by decide), if_pos rfl, hread]
    rfl

theorem length_le_flatMap_escapedChar (cs : List Char) :
    cs.length ≤ (cs.flatMap escapedChar).length := by
  induction cs with
  | nil => simp
  | cons c cs ih =>
    have hpos : 0 < (escapedChar c).length := by
      rcases escapedChar_cases c with ⟨hself, -⟩ | ⟨tail, htail, -⟩
      · simp [hself]
      · simp [htail]
    rw [List.flatMap_cons, List.length_append, List.length_cons]
    omega

/-- **A text is read back** from between its quotes. -/
theorem readText?_quoted (cs rest seen : List Char) {fuel : Nat} (hfuel : cs.length < fuel) :
    readText? fuel seen (cs.flatMap escapedChar ++ '\x22' :: rest) =
      some (String.ofList (seen.reverse ++ cs), rest) := by
  induction cs generalizing fuel seen with
  | nil =>
    obtain ⟨fuel, rfl⟩ := Nat.exists_eq_add_of_lt hfuel
    simp [readText?]
  | cons c cs ih =>
    obtain ⟨fuel, rfl⟩ : ∃ n, fuel = n + 1 := ⟨fuel - 1, by simp at hfuel; omega⟩
    rw [List.flatMap_cons, List.append_assoc, readText?_escapedChar, ih _ (by simpa using hfuel)]
    simp

/-! ### Integers -/

/-- The character is one that a number may go on with. -/
def inNumber (c : Char) : Bool := isDigit c || (c = '.' || (c = 'e' || c = 'E'))

/-- Behind a number that ends here may stand nothing or a character that ends it. -/
def Ends (rest : List Char) : Prop := ∀ c cs, rest = c :: cs → inNumber c = false

theorem ends_nil : Ends [] := by
  intro c cs h
  simp at h

theorem ends_cons {c : Char} {cs : List Char} (h : inNumber c = false) : Ends (c :: cs) := by
  intro d ds heq
  rw [← (List.cons.inj heq).1]
  exact h

theorem isDigit_of_mem_toDigits {n : Nat} {c : Char} (h : c ∈ Nat.toDigits 10 n) :
    isDigit c = true :=
  Nat.isDigit_of_mem_toDigits (by decide) (by decide) h

/-- Digits are taken up to the end of the number. -/
theorem span_toDigits (n : Nat) {rest : List Char} (h : Ends rest) :
    (Nat.toDigits 10 n ++ rest).takeWhile isDigit = Nat.toDigits 10 n ∧
      (Nat.toDigits 10 n ++ rest).dropWhile isDigit = rest := by
  have hall : ∀ c ∈ Nat.toDigits 10 n, isDigit c = true := fun c hc => isDigit_of_mem_toDigits hc
  rw [List.takeWhile_append_of_pos hall, List.dropWhile_append_of_pos hall]
  cases rest with
  | nil => simp
  | cons c cs =>
    have hc : isDigit c = false := (Bool.or_eq_false_iff.mp (h c cs rfl)).1
    simp [hc]

/-- No number but zero starts with a zero. -/
theorem eq_zero_of_head? {n : Nat} (h : (Nat.toDigits 10 n).head? = some '0') : n = 0 := by
  induction n using Nat.strongRecOn with
  | ind n ih =>
    by_cases hn : n < 10
    · rw [Nat.toDigits_of_lt_base hn] at h
      simpa using h
    · obtain ⟨c, cs, hc⟩ := List.exists_cons_of_ne_nil (Nat.toDigits_ne_nil (n := n / 10) (b := 10))
      rw [Nat.toDigits_of_base_le (by decide) (Nat.le_of_not_lt hn), hc] at h
      have hzero := ih (n / 10) (by omega) (by rw [hc]; exact h)
      omega

theorem ofDigits_toDigits (n : Nat) : ofDigits (Nat.toDigits 10 n) = n := by
  show Nat.ofDigitChars 10 (Nat.toDigits 10 n) 0 = n
  exact Nat.ofDigitChars_ten_toDigits

theorem readFraction?_of_ends {rest : List Char} (h : Ends rest) :
    readFraction? rest = some ([], rest) := by
  match rest with
  | [] => rfl
  | c :: cs =>
    have hc := h c cs rfl
    rw [readFraction?]
    rintro cs' heq
    rw [(List.cons.inj heq).1] at hc
    simp [inNumber] at hc

theorem readExponent?_of_ends {rest : List Char} (h : Ends rest) :
    readExponent? rest = some (none, rest) := by
  match rest with
  | [] => rfl
  | c :: cs =>
    have hc := h c cs rfl
    rw [readExponent?, if_neg]
    rintro (rfl | rfl) <;> simp [inNumber] at hc

theorem readNumber?_toDigits (negative : Bool) (n : Nat) {rest : List Char} (h : Ends rest) :
    readNumber? negative (Nat.toDigits 10 n ++ rest) = some (.int (signed negative n), rest) := by
  obtain ⟨htake, hdrop⟩ := span_toDigits n h
  have hnonempty : (Nat.toDigits 10 n).isEmpty = false := by
    simp [Nat.toDigits_ne_nil]
  have hzero :
      ((Nat.toDigits 10 n).length != 1 && (Nat.toDigits 10 n).head? = some '0') = false := by
    rw [Bool.and_eq_false_iff]
    by_cases hhead : (Nat.toDigits 10 n).head? = some '0'
    · rw [eq_zero_of_head? hhead]
      exact .inl rfl
    · exact .inr (decide_eq_false hhead)
  rw [readNumber?, htake, hdrop, hnonempty, hzero, readFraction?_of_ends h]
  simp only [Bool.or_self, Bool.false_eq_true, if_false, Option.bind_eq_bind, Option.bind_some,
    readExponent?_of_ends h, List.isEmpty_nil, Option.isNone_none, Bool.and_self, if_true,
    ofDigits_toDigits]
  rfl

/-- No word starts with a digit. -/
theorem readPlain?_of_digit {c : Char} {cs : List Char} (hc : isDigit c = true) :
    readPlain? (c :: cs) = readNumber? false (c :: cs) := by
  have hne : 'n' ≠ c ∧ 't' ≠ c ∧ 'f' ≠ c ∧ '-' ≠ c := by
    refine ⟨?_, ?_, ?_, ?_⟩ <;> rintro rfl <;> simp [isDigit] at hc
  have hnull : dropWord? "null".toList (c :: cs) = none := if_neg hne.1
  have htrue : dropWord? "true".toList (c :: cs) = none := if_neg hne.2.1
  have hfalse : dropWord? "false".toList (c :: cs) = none := if_neg hne.2.2.1
  rw [readPlain?, hnull, htrue, hfalse]
  exact fun rest heq => hne.2.2.2 (List.cons.inj heq).1.symm

/-- The text of an integer starts with a digit or a minus, and it has no other characters. -/
theorem toList_toString_int (n : Int) :
    ∃ c cs, (toString n).toList = c :: cs ∧ ∀ d ∈ c :: cs, isDigit d = true ∨ d = '-' := by
  have hdigits (n : Nat) : ∀ d ∈ Nat.toDigits 10 n, isDigit d = true ∨ d = '-' :=
    fun d hd => .inl (isDigit_of_mem_toDigits hd)
  rw [Int.toString_eq_repr, Int.repr_eq_if]
  split
  · obtain ⟨c, cs, hcs⟩ := List.exists_cons_of_ne_nil (Nat.toDigits_ne_nil (n := n.toNat) (b := 10))
    exact ⟨c, cs, by rw [Nat.toList_repr, hcs], hcs ▸ hdigits n.toNat⟩
  · refine ⟨'-', Nat.toDigits 10 (-n).toNat, by rw [String.toList_append, Nat.toList_repr]; rfl, ?_⟩
    exact List.forall_mem_cons.mpr ⟨.inr rfl, hdigits _⟩

/-- **An integer is read back**, whatever its size. -/
theorem readPlain?_int (n : Int) {rest : List Char} (h : Ends rest) :
    readPlain? ((toString n).toList ++ rest) = some (.int n, rest) := by
  rw [Int.toString_eq_repr, Int.repr_eq_if]
  split
  · next hn =>
    obtain ⟨c, cs, hcs⟩ := List.exists_cons_of_ne_nil (Nat.toDigits_ne_nil (n := n.toNat) (b := 10))
    have hc : isDigit c = true := isDigit_of_mem_toDigits (n := n.toNat) (by simp [hcs])
    have hread := readNumber?_toDigits false n.toNat h
    rw [Nat.toList_repr]
    rw [hcs, List.cons_append] at hread ⊢
    rw [readPlain?_of_digit hc, hread, signed, if_neg (by decide), Int.toNat_of_nonneg hn]
  · next hn =>
    have hread := readNumber?_toDigits true (-n).toNat h
    rw [signed, if_pos rfl, Int.toNat_of_nonneg (by omega), Int.neg_neg] at hread
    rw [String.toList_append, Nat.toList_repr]
    exact hread

end ApiSchema.Json
