/-
Decimal numerals.

Both file formats write numbers as decimal digits with an optional fraction and
an optional exponent, and differ only in which of the parts may be left out.
What they share stands here.
-/
import ApiSchema.Numeric.Binary64

namespace ApiSchema.Numeral

/-- A decimal digit. -/
def isDigit (c : Char) : Bool := '0' ≤ c && c ≤ '9'

/-- The number that decimal digits write. -/
def ofDigits (cs : List Char) : Nat := cs.foldl (fun n c => 10 * n + (c.toNat - 48)) 0

/-- Whether a minus stands in front, and the rest behind the sign, if there is a sign. -/
def splitSign : List Char → Bool × List Char
  | '-' :: cs => (true, cs)
  | '+' :: cs => (false, cs)
  | cs => (false, cs)

/-- The most digits that an integer has where it is read or written in base ten. -/
def maxDigits : Nat := 4300

/-- The integer can be written in base ten. -/
def isWritable (n : Int) : Bool := n.natAbs < Binary64.tenPow maxDigits

/-- The integer of that sign and size. -/
def signed (negative : Bool) (n : Nat) : Int := if negative then -n else n

/-- An exponent, if one stands here; `none` for a mark of an exponent without digits. -/
def readExponent? : List Char → Option (Option Int × List Char)
  | c :: cs =>
    if c = 'e' ∨ c = 'E' then
      let (negative, rest) := splitSign cs
      let digits := rest.takeWhile isDigit
      if digits.isEmpty then none
      else some (some (signed negative (ofDigits digits)), rest.dropWhile isDigit)
    else some (none, c :: cs)
  | [] => some (none, [])

/-- The number that the digits in front of and behind the point write, times a power of ten. -/
def toFloat (negative : Bool) (whole fraction : List Char) (exponent : Int) : Binary64 :=
  .ofDecimal negative (ofDigits (whole ++ fraction)) (exponent - fraction.length)

example : toFloat false ['1'] ['5'] 0 = .finite false 6755399441055744 (-52) := by decide +kernel

end ApiSchema.Numeral
