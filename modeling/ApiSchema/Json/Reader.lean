/-
Strict reading of JSON text.

The reader takes what the JSON grammar allows and nothing else: no comments, no
comma before a closing bracket, no leading zeros, no control characters inside
texts, no lone surrogates.  Integers keep all their digits, other numbers are
rounded to 64 bits.  Objects keep the order of their keys; a key written again
overwrites its value.

Each call of the readers below takes at least one character or ends, so the
number of characters of the input bounds the depth of the calls.
-/
import ApiSchema.Numeric.Decimal
import ApiSchema.Value.Entries

namespace ApiSchema.Json

open Numeral

/-- Drops white space in front. -/
def skipBlank (cs : List Char) : List Char :=
  cs.dropWhile fun c => c = ' ' || c = '\n' || c = '\t' || c = '\r'

/-- Removes a word in front, if it is there. -/
def dropWord? : List Char → List Char → Option (List Char)
  | [], cs => some cs
  | w :: ws, c :: cs => if w = c then dropWord? ws cs else none
  | _ :: _, [] => none

/-! ### Texts -/

/-- The character that a pair of UTF-16 units encodes. -/
def ofSurrogates? (high low : Nat) : Option Char :=
  if 0xd800 ≤ high ∧ high < 0xdc00 ∧ 0xdc00 ≤ low ∧ low < 0xe000 then
    some (Char.ofNat (0x10000 + (high - 0xd800) * 0x400 + (low - 0xdc00)))
  else none

/-- One escape behind its backslash, and the characters behind it. -/
def readEscape? : List Char → Option (Char × List Char)
  | 'u' :: a :: b :: c :: d :: cs => do
    let n ← Text.ofHex? [a, b, c, d]
    if n < 0xd800 ∨ 0xe000 ≤ n then return (Char.ofNat n, cs)
    match cs with
    | '\\' :: 'u' :: e :: f :: g :: h :: rest => do
      let c ← ofSurrogates? n (← Text.ofHex? [e, f, g, h])
      return (c, rest)
    | _ => none
  | '\x22' :: cs => some ('\x22', cs)
  | '\\' :: cs => some ('\\', cs)
  | '/' :: cs => some ('/', cs)
  | 'b' :: cs => some ('\x08', cs)
  | 'f' :: cs => some ('\x0c', cs)
  | 'n' :: cs => some ('\n', cs)
  | 'r' :: cs => some ('\r', cs)
  | 't' :: cs => some ('\t', cs)
  | _ => none

/-- The characters up to the closing quote, in reverse behind `seen`. -/
def readText? : Nat → List Char → List Char → Option (String × List Char)
  | fuel + 1, seen, c :: cs =>
    if c = '\x22' then some (String.ofList seen.reverse, cs)
    else if c = '\\' then do
      let (e, rest) ← readEscape? cs
      readText? fuel (e :: seen) rest
    else if c.toNat < 0x20 then none
    else readText? fuel (c :: seen) cs
  | _, _, _ => none

/-! ### Numbers -/

/-- A fraction: the digits behind a point. -/
def readFraction? : List Char → Option (List Char × List Char)
  | '.' :: cs =>
    let digits := cs.takeWhile isDigit
    if digits.isEmpty then none else some (digits, cs.dropWhile isDigit)
  | cs => some ([], cs)

/-- A number behind its sign. -/
def readNumber? (negative : Bool) (cs : List Char) : Option (Scalar × List Char) := do
  let whole := cs.takeWhile isDigit
  if whole.isEmpty || (whole.length != 1 && whole.head? = some '0') then none
  else
    let (fraction, rest) ← readFraction? (cs.dropWhile isDigit)
    let (exponent, rest) ← readExponent? rest
    if fraction.isEmpty && exponent.isNone then
      return (.int (signed negative (ofDigits whole)), rest)
    else
      return (.float (toFloat negative whole fraction (exponent.getD 0)), rest)

/-! ### Values -/

/-- A scalar that is not a text. -/
def readPlain? (cs : List Char) : Option (Scalar × List Char) :=
  match dropWord? "null".toList cs, dropWord? "true".toList cs, dropWord? "false".toList cs with
  | some rest, _, _ => some (.null, rest)
  | _, some rest, _ => some (.bool true, rest)
  | _, _, some rest => some (.bool false, rest)
  | _, _, _ => match cs with
    | '-' :: rest => readNumber? true rest
    | _ => readNumber? false cs

mutual

/-- A value, after white space. -/
def readValue? : Nat → List Char → Option (Value × List Char)
  | 0, _ => none
  | fuel + 1, cs => match skipBlank cs with
    | '[' :: rest => match skipBlank rest with
      | ']' :: rest => some (.array .list [], rest)
      | _ => do
        let (items, rest) ← readItems? fuel rest
        return (.array .list items, rest)
    | '\x7b' :: rest => match skipBlank rest with
      | '\x7d' :: rest => some (.mapping [], rest)
      | _ => do
        let (fields, rest) ← readFields? fuel rest
        return (.mapping (Entries.ofPairs fields), rest)
    | '\x22' :: rest => do
      let (s, rest) ← readText? rest.length [] rest
      return (.str s, rest)
    | cs => do
      let (s, rest) ← readPlain? cs
      return (.scalar s, rest)

/-- Items up to the closing bracket. -/
def readItems? : Nat → List Char → Option (List Value × List Char)
  | 0, _ => none
  | fuel + 1, cs => do
    let (v, rest) ← readValue? fuel cs
    match skipBlank rest with
    | ',' :: rest => do
      let (vs, rest) ← readItems? fuel rest
      return (v :: vs, rest)
    | ']' :: rest => return ([v], rest)
    | _ => none

/-- Fields up to the closing brace. -/
def readFields? : Nat → List Char → Option (List (Scalar × Value) × List Char)
  | 0, _ => none
  | fuel + 1, cs => match skipBlank cs with
    | '\x22' :: rest => do
      let (key, rest) ← readText? rest.length [] rest
      match skipBlank rest with
      | ':' :: rest => do
        let (v, rest) ← readValue? fuel rest
        match skipBlank rest with
        | ',' :: rest => do
          let (fields, rest) ← readFields? fuel rest
          return ((.str key, v) :: fields, rest)
        | '\x7d' :: rest => return ([(.str key, v)], rest)
        | _ => none
      | _ => none
    | _ => none

end

/-- The value that a whole text writes. -/
def parse? (text : String) : Option Value := do
  let cs := text.toList
  let (v, rest) ← readValue? (cs.length + 1) cs
  if (skipBlank rest).isEmpty then some v else none

example : parse? "[1, \x7b\"a\": true, \"a\": null\x7d]" =
    some (.array .list [.scalar (.int 1), .mapping [(.str "a", .null)]]) := by decide +kernel

end ApiSchema.Json
