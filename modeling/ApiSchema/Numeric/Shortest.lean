/-
The fewest digits that read back.

Every real close enough to a 64-bit number rounds to it.  Among the decimals with
one digit, two digits, and so on, the first that lies in that interval is the
text of the number.  On each decimal grid only the two neighbours of the number
have to be tried: if any point of the grid lies in the interval, one of them does.
-/
import ApiSchema.Numeric.Binary64

namespace ApiSchema

/-- A positive decimal number `digits · 10^exponent`. -/
structure Decimal where
  /-- The digits, read as one number. -/
  digits : Nat
  /-- The place of the last digit. -/
  exponent : Int
deriving DecidableEq, Repr

namespace Decimal

/-- The digits as characters. -/
def text (d : Decimal) : List Char := Nat.toDigits 10 d.digits

/-- The exponent of the first digit. -/
def magnitude (d : Decimal) : Int := (d.text.length : Int) - 1 + d.exponent

/-- Drops the zeros at the end, of which there are at most `fuel`. -/
def trimZeros : Nat → Decimal → Decimal
  | fuel + 1, d =>
    if d.digits % 10 = 0 && d.digits != 0 then trimZeros fuel ⟨d.digits / 10, d.exponent + 1⟩
    else d
  | 0, d => d

end Decimal

namespace Binary64

/-- The exponent of the first decimal digit of the positive ratio `num / den`. -/
def decimalMagnitude (num den : Nat) : Int :=
  if den ≤ num then ((Nat.toDigits 10 (num / den)).length : Int) - 1
  else
    -- the least `j` with `den ≤ num · 10^j` is the number of digits of the quotient less one
    let below := (den + num - 1) / num - 1
    0 - ((if below = 0 then [] else Nat.toDigits 10 below).length : Int)

/-- The interval of reals that round to a number, measured in units of `num / den`:
`center` is the number, `low` and `high` the ends, which belong to it iff `closed`. -/
structure RoundingInterval where
  /-- The number itself. -/
  center : Nat
  /-- The lower end. -/
  low : Nat
  /-- The upper end. -/
  high : Nat
  /-- The ends round to the number too. -/
  closed : Bool

/-- The rounding interval of `mantissa · 2^exponent` in quarters of its unit.  The gap below a power
of two is half the gap above it. -/
def roundingInterval (mantissa : Nat) (exponent : Int) : RoundingInterval where
  center := 4 * mantissa
  low := 4 * mantissa - (if mantissa = twoPow 52 ∧ exponent ≠ minExponent then 1 else 2)
  high := 4 * mantissa + 2
  closed := mantissa % 2 = 0

/-- The point `candidate · step` lies in the interval scaled by `unit`. -/
def RoundingInterval.holds (r : RoundingInterval) (unit step candidate : Nat) : Bool :=
  let x := candidate * step
  if r.closed then r.low * unit ≤ x && x ≤ r.high * unit
  else r.low * unit < x && x < r.high * unit

/-- The point of the grid of `10^place` nearest to the number, if one of its neighbours on that grid
lies in the interval.  A tie goes to the even neighbour. -/
def nearestOnGrid? (r : RoundingInterval) (exponent : Int) (place : Int) : Option Decimal :=
  -- one quarter of the number's unit is `unit / step` steps of the grid
  let q := exponent - 2
  let unit := twoPow q.toNat * tenPow (-place).toNat
  let step := twoPow (-q).toNat * tenPow place.toNat
  let below := r.center * unit / step
  let above := below + 1
  match r.holds unit step below, r.holds unit step above with
  | true, false => some ⟨below, place⟩
  | false, true => some ⟨above, place⟩
  | false, false => none
  | true, true =>
    let down := r.center * unit - below * step
    let up := above * step - r.center * unit
    some ⟨if down < up ∨ (down = up ∧ below % 2 = 0) then below else above, place⟩

/-- The first grid with `digits`, `digits + 1`, … digits that has a point in the interval. -/
def firstHit (r : RoundingInterval) (exponent magnitude : Int) : Nat → Nat → Decimal
  | 0, _ => ⟨0, 0⟩
  | tries + 1, digits =>
    match nearestOnGrid? r exponent (magnitude + 1 - digits) with
    | some d => d
    | none => firstHit r exponent magnitude tries (digits + 1)

/-- The shortest decimal that rounds to the positive number `mantissa · 2^exponent`, and of those
the nearest.  Seventeen digits always suffice. -/
def shortest (mantissa : Nat) (exponent : Int) : Decimal :=
  let r := roundingInterval mantissa exponent
  let magnitude := decimalMagnitude (mantissa * twoPow exponent.toNat) (twoPow (-exponent).toNat)
  (firstHit r exponent magnitude 17 1).trimZeros 20

example : shortest 7205759403792794 (-56) = ⟨1, -1⟩ := by decide +kernel

example : shortest 1 (-1074) = ⟨5, -324⟩ := by decide +kernel

end Binary64

end ApiSchema
