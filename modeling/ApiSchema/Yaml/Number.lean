/-
The numbers that scalars write.

A scalar that is tagged as a number by hand need not have the form that a plain
number has, so these readers take more than `isInt` and `isFloat` accept: digits
of other scripts, white space around the digits, a second sign, an exponent
without a sign.  What still names no number is a fault.
-/
import ApiSchema.Fault
import ApiSchema.Text.Blank
import ApiSchema.Text.DecimalDigit
import ApiSchema.Yaml.Tag

namespace ApiSchema.Yaml

open Numeral

/-! ### Digits and white space -/

/-- A character as numbers read it: a digit of another script is a digit, and white space beyond
ASCII is a space. -/
def numeralChar (c : Char) : Char :=
  if c.toNat < 0x80 then c
  else if Text.isBlank c then ' '
  else match Text.decimalValue? c with
    | some d => Nat.digitChar d
    | none => c

/-- The white space of ASCII that may stand around a number. -/
def isNumeralBlank (c : Char) : Bool := c = ' ' || ('\t' ≤ c && c ≤ '\r')

/-- A text as numbers read it, without the white space around it. -/
def numeral (text : List Char) : List Char :=
  Text.trimWhere isNumeralBlank (text.map numeralChar)

/-! ### Integers -/

/-- The number that digits of a base write; there has to be one. -/
def digitsIn? (base : Nat) (cs : List Char) : Option Nat :=
  if cs.isEmpty then none
  else cs.foldlM (fun n c => do
    let d ← Text.hexValue? c
    if d < base then some (base * n + d) else none) 0

/-- The letter that may stand behind a zero to mark the base. -/
def baseMark? : Nat → Option Char
  | 2 => some 'b'
  | 8 => some 'o'
  | 16 => some 'x'
  | _ => none

/-- Without the mark of the base in front. -/
def dropBaseMark (base : Nat) : List Char → List Char
  | '0' :: mark :: cs => if baseMark? base = some mark.toLower then cs else '0' :: mark :: cs
  | cs => cs

/-- The integer that a text writes in a base, possibly with white space around it, a sign and the
mark of the base. -/
def integerIn? (base : Nat) (text : List Char) : Option Int :=
  let (negative, rest) := splitSign (numeral text)
  let digits := dropBaseMark base rest
  if base = 10 ∧ maxDigits < digits.length then none
  else (digitsIn? base digits).map (signed negative)

/-- The integer that decimal places of a number in base 60 write, the highest place first. -/
def sixtieths? (places : List (List Char)) : Option Int :=
  places.foldlM (fun n place => (integerIn? 10 place).map (60 * n + ·)) 0

/-- The size of an integer, as it stands behind the sign. -/
def integerSize? : List Char → Option Int
  | '0' :: 'b' :: digits => integerIn? 2 digits
  | '0' :: 'x' :: digits => integerIn? 16 digits
  | '0' :: digits => integerIn? 8 ('0' :: digits)
  | cs => sixtieths? (Text.pieces ':' cs)

/-- The integer that a scalar writes. -/
def readInt (text : List Char) : Except Fault Int :=
  match splitSign (text.filter (· ≠ '_')) with
  | (_, []) => .error .emptyNumber
  | (negative, cs) => match integerSize? cs with
    | some n => .ok (if negative then -n else n)
    | none => .error .impossibleScalar

/-! ### Floating-point numbers -/

/-- The number that a decimal numeral in lower case writes.  One of its whole part and its fraction
may be empty. -/
def decimalFloat? (negative : Bool) (cs : List Char) : Option Binary64 := do
  let whole := cs.takeWhile isDigit
  let (fraction, rest) := match cs.drop whole.length with
    | '.' :: rest => (rest.takeWhile isDigit, rest.dropWhile isDigit)
    | rest => ([], rest)
  let (exponent, rest) ← readExponent? rest
  if (whole.isEmpty && fraction.isEmpty) || !rest.isEmpty then none
  else return toFloat negative whole fraction (exponent.getD 0)

/-- The number that a text in lower case writes, possibly with white space around it and a sign. -/
def float? (text : List Char) : Option Binary64 :=
  let (negative, cs) := splitSign (numeral text)
  if cs = "inf".toList ∨ cs = "infinity".toList then some (.infinite negative)
  else if cs = "nan".toList then some (.nan 0)
  else decimalFloat? negative cs

/-- The number that places in base 60 write, the lowest place first.  What a place is worth is an
integer; it is rounded before it is multiplied, and each step is rounded again. -/
def floatSixtieths (places : List Binary64) : Except Fault Binary64 := do
  let (sum, _) ← places.foldlM (fun (sum, worth) x => do
    match Binary64.ofNat? worth with
    | some unit => return (Binary64.add sum (Binary64.mul x unit), 60 * worth)
    | none => throw .hugePlace) (Binary64.zero false, 1)
  return sum

/-- The size of a floating-point number, as it stands behind the sign, in lower case. -/
def floatSize (cs : List Char) : Except Fault Binary64 :=
  if cs = ".inf".toList then .ok (.infinite false)
  else match (Text.pieces ':' cs).mapM float? with
    | none => .error .impossibleScalar
    | some [x] => .ok x
    | some places => floatSixtieths places.reverse

/-- The floating-point number that a scalar writes.  All scalars that write `.nan` stand for one
value; whatever else is not a number has the origin of its scalar. -/
def readFloat (origin : Nat) (text : List Char) : Except Fault Binary64 :=
  match (text.filter (· ≠ '_')).map Char.toLower with
  | [] => .error .emptyNumber
  | cs =>
    let (negative, size) := splitSign cs
    if size = ".nan".toList then .ok (.nan 0)
    else (floatSize size).map fun x => (if negative then x.neg else x).withOrigin origin

example : (readInt "1:30".toList).toOption = some 90 := by decide +kernel

example : (readInt "-0x_1f".toList).toOption = some (-31) := by decide +kernel

example : (readInt "08".toList).toOption = none := by decide +kernel

end ApiSchema.Yaml
