/-
The text of a number.

Which digits a number has is one question, how they are laid out another.  A
`NumberLayout` answers the second: where positional writing ends, how an
exponent is written, and what stands for the values that have no digits.
-/
import ApiSchema.Numeric.Shortest

namespace ApiSchema

/-- How the digits of a number are written. -/
structure NumberLayout where
  /-- The least exponent of the first digit that is written positionally. -/
  positionalFrom : Int := -4
  /-- The least exponent above it that is not. -/
  positionalBelow : Int := 16
  /-- The fewest digits of an exponent. -/
  exponentWidth : Nat := 2
  /-- The text of a value that is not a number. -/
  nan : String := "nan"
  /-- The text of the positive infinity. -/
  infinity : String := "inf"

namespace NumberLayout

/-- Digits with a decimal point; a whole number keeps one zero behind the point. -/
def positional (digits : List Char) (magnitude : Int) : List Char :=
  if magnitude < 0 then
    '0' :: '.' :: (List.replicate (-magnitude - 1).toNat '0' ++ digits)
  else
    let whole := magnitude.toNat + 1
    let fraction := digits.drop whole
    digits.take whole ++ List.replicate (whole - digits.length) '0'
      ++ '.' :: (if fraction.isEmpty then ['0'] else fraction)

/-- Digits with the point behind the first one and a signed exponent. -/
def scientific (layout : NumberLayout) (digits : List Char) (magnitude : Int) : List Char :=
  let exponent := Nat.toDigits 10 magnitude.natAbs
  let padded := List.replicate (layout.exponentWidth - exponent.length) '0' ++ exponent
  let mantissa := match digits with
    | d :: rest@(_ :: _) => d :: '.' :: rest
    | ds => ds
  mantissa ++ 'e' :: (if magnitude < 0 then '-' else '+') :: padded

/-- The text of a number.  A zero is written with its sign. -/
def write (layout : NumberLayout) : Binary64 → String
  | .nan _ => layout.nan
  | .infinite s => (if s then "-" else "") ++ layout.infinity
  | .finite s m e =>
    let body :=
      if m = 0 then ['0', '.', '0']
      else
        let d := Binary64.shortest m e
        if layout.positionalFrom ≤ d.magnitude ∧ d.magnitude < layout.positionalBelow then
          positional d.text d.magnitude
        else layout.scientific d.text d.magnitude
    String.ofList (if s then '-' :: body else body)

example : ({} : NumberLayout).write (.ofDecimal false 1 22) = "1e+22" := by decide +kernel

example : ({} : NumberLayout).write (.ofDecimal true 125 (-2)) = "-1.25" := by decide +kernel

example : ({} : NumberLayout).write (.ofDecimal false 1 15) = "1000000000000000.0" := by
  decide +kernel

end NumberLayout

end ApiSchema
