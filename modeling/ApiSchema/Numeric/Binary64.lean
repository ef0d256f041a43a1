/-
Binary floating-point numbers of 64 bits, as exact values.

A finite number is `±mantissa · 2^exponent`.  Keeping the two integers instead of
the machine word makes every rounding an integer division, so reading a decimal,
printing one and comparing with an integer are all computed without loss, and
equality of numbers is equality of their parts.
-/

namespace ApiSchema

/-- A number of 64 bits.  Finite numbers built by `Binary64.ofRatio` have a mantissa of 53 bits, or
of fewer at the least exponent. -/
inductive Binary64 where
  /-- Not a number.  Such values differ if they have different origins. -/
  | nan (origin : Nat)
  /-- An infinity. -/
  | infinite (negative : Bool)
  /-- The number `±mantissa · 2^exponent`. -/
  | finite (negative : Bool) (mantissa : Nat) (exponent : Int)
deriving DecidableEq, Repr

namespace Binary64

/-- A power of two. -/
def twoPow (n : Nat) : Nat := Nat.pow 2 n

/-- A power of ten. -/
def tenPow (n : Nat) : Nat := Nat.pow 10 n

/-- The least exponent; numbers below `2^52` times its unit are subnormal. -/
def minExponent : Int := -1074

/-- The greatest exponent of a finite number. -/
def maxExponent : Int := 971

/-- Zero of either sign. -/
def zero (negative : Bool) : Binary64 := finite negative 0 minExponent

/-! ### Rounding -/

/-- The integer nearest to `num / den`, a tie going to the even neighbour. -/
def roundHalfEven (num den : Nat) : Nat :=
  let q := num / den
  let r := num % den
  if 2 * r < den then q
  else if den < 2 * r then q + 1
  else if q % 2 = 0 then q
  else q + 1

/-- Numerator and denominator of `num / (den · 2^e)`. -/
def scaled (num den : Nat) (e : Int) : Nat × Nat :=
  (num * twoPow (-e).toNat, den * twoPow e.toNat)

/-- The exponent at which the integer part of `num / den` has 53 bits, no less than the least. -/
def exponentFor (num den : Nat) : Int :=
  let e : Int := (Nat.log2 num : Int) - (Nat.log2 den : Int) - 52
  let (a, b) := scaled num den e
  max (if twoPow 52 ≤ a / b then e else e - 1) minExponent

/-- The number nearest to `±num / den`, a tie going to the even mantissa. -/
def ofRatio (negative : Bool) (num den : Nat) : Binary64 :=
  if num = 0 then zero negative
  else
    let e := exponentFor num den
    let (a, b) := scaled num den e
    let m := roundHalfEven a b
    let (m, e) := if m = twoPow 53 then (twoPow 52, e + 1) else (m, e)
    if maxExponent < e then infinite negative else finite negative m e

/-- The number nearest to `±digits · 10^exponent`. -/
def ofDecimal (negative : Bool) (digits : Nat) (exponent : Int) : Binary64 :=
  if digits = 0 then zero negative
  else
    -- the decimal point stands before the first digit times ten to this power
    let point : Int := ((Nat.toDigits 10 digits).length : Int) + exponent
    if 400 < point then infinite negative
    else if point < -400 then zero negative
    else ofRatio negative (digits * tenPow exponent.toNat) (tenPow (-exponent).toNat)

/-! ### Exact readings -/

/-- The sign of a number; that of a zero counts. -/
def isNegative : Binary64 → Bool
  | nan _ => false
  | infinite s => s
  | finite s _ _ => s

/-- The same value, with another origin if it is not a number. -/
def withOrigin (origin : Nat) : Binary64 → Binary64
  | nan _ => nan origin
  | x => x

/-- The same number with the other sign. -/
def neg : Binary64 → Binary64
  | nan origin => nan origin
  | infinite s => infinite !s
  | finite s m e => finite (!s) m e

/-- A finite number as numerator over denominator. -/
def toRatio? : Binary64 → Option (Int × Nat)
  | finite s m e =>
    let num : Int := m * twoPow e.toNat
    some (if s then -num else num, twoPow (-e).toNat)
  | _ => none

/-- The integer that a number equals, if it equals one. -/
def toInt? (x : Binary64) : Option Int :=
  x.toRatio?.bind fun (num, den) => if num % den = 0 then some (num / den) else none

/-- The number is neither zero nor absent; not-a-number counts as present. -/
def isNonzero : Binary64 → Bool
  | finite _ m _ => m != 0
  | _ => true

/-! ### Arithmetic, each operation rounded once -/

/-- The number nearest to an exact quotient, with the sign of a zero given apart. -/
def ofSigned (zeroSign : Bool) (num : Int) (den : Nat) : Binary64 :=
  if num = 0 then zero zeroSign else ofRatio (num < 0) num.natAbs den

/-- The integer as a floating-point number, rounded; none if it is beyond all of them. -/
def ofNat? (n : Nat) : Option Binary64 :=
  match ofRatio false n 1 with
  | infinite _ => none
  | x => some x

/-- The sum, rounded. -/
def add : Binary64 → Binary64 → Binary64
  | x@(nan _), _ | _, x@(nan _) => x
  | infinite s, infinite t => if s = t then infinite s else nan 0
  | infinite s, _ => infinite s
  | _, infinite t => infinite t
  | x@(finite s _ _), y@(finite t _ _) =>
    match x.toRatio?, y.toRatio? with
    | some (a, b), some (c, d) => ofSigned (s && t) (a * d + c * b) (b * d)
    | _, _ => nan 0

/-- The product, rounded. -/
def mul : Binary64 → Binary64 → Binary64
  | x@(nan _), _ | _, x@(nan _) => x
  | infinite s, y | y, infinite s =>
    if y.isNonzero then infinite (s != y.isNegative) else nan 0
  | x@(finite s _ _), y@(finite t _ _) =>
    match x.toRatio?, y.toRatio? with
    | some (a, b), some (c, d) => ofSigned (s != t) (a * c) (b * d)
    | _, _ => nan 0

example : ofDecimal false 1 (-1) = finite false 7205759403792794 (-56) := by decide +kernel

example : ofDecimal false 5 (-324) = finite false 1 (-1074) := by decide +kernel

example : ofDecimal true 18 308 = infinite true := by decide +kernel

end Binary64

end ApiSchema
