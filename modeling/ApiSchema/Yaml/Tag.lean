/-
Tags, and the tags of plain scalars.

A node that carries no tag gets one from its form.  Collections and quoted
scalars have one form each; a plain scalar is tried against the forms of truth
values, numbers, nulls and timestamps, and is a text if it has none of them.
Numbers may be written in base 2, 8, 10, 16 or 60, with underscores between
digits.  A fraction needs its point and an exponent its sign.
-/
import ApiSchema.Calendar
import ApiSchema.Numeric.Decimal
import ApiSchema.Text.Hex
import ApiSchema.Text.Pieces

namespace ApiSchema.Yaml

open Numeral

/-- The kind of data that a node stands for. -/
inductive Tag where
  /-- No value. -/
  | null
  /-- A truth value. -/
  | bool
  /-- An integer. -/
  | int
  /-- A floating-point number. -/
  | float
  /-- Bytes. -/
  | binary
  /-- A date or a moment. -/
  | timestamp
  /-- A text. -/
  | str
  /-- An array. -/
  | seq
  /-- An array of pairs, each of them a tuple. -/
  | pairs
  /-- A mapping. -/
  | map
  /-- A set. -/
  | set
  /-- The key whose value is merged into its mapping. -/
  | merge
  /-- The key whose value stands for its mapping. -/
  | value
  /-- Anything else. -/
  | other (uri : String)
deriving DecidableEq, Repr

namespace Tag

/-- What the names of the standard tags start with. -/
def standard : String := "tag:yaml.org,2002:"

/-- The standard tags by name.  An ordered mapping is an array of pairs like any other. -/
def names : List (String × Tag) :=
  [("null", null), ("bool", bool), ("int", int), ("float", float), ("binary", binary),
    ("timestamp", timestamp), ("str", str), ("seq", seq), ("omap", pairs), ("pairs", pairs),
    ("map", map), ("set", set), ("merge", merge), ("value", value)]

/-- The tag that a full name names. -/
def ofUri (uri : String) : Tag :=
  match names.find? fun (name, _) => uri = standard ++ name with
  | some (_, tag) => tag
  | none => other uri

end Tag

/-! ### Forms of numbers -/

/-- A decimal digit or an underscore. -/
def isDigitOrUnderscore (c : Char) : Bool := isDigit c || c = '_'

/-- At least one character, all of one class. -/
def isRun (p : Char → Bool) (cs : List Char) : Bool := !cs.isEmpty && cs.all p

/-- A digit, and behind it only characters of a class. -/
def isNumeral (first rest : Char → Bool) : List Char → Bool
  | c :: cs => first c && cs.all rest
  | [] => false

/-- A place of a number in base 60 behind the first: one or two digits below 60. -/
def isSixtieth : List Char → Bool
  | [d] => isDigit d
  | [t, d] => '0' ≤ t && t ≤ '5' && isDigit d
  | _ => false

/-- Places separated by colons, at least two, of which the first starts with a digit of `first`. -/
def isSexagesimal (first : Char → Bool) (cs : List Char) : Bool :=
  match Text.pieces ':' cs with
  | lead :: places@(_ :: _) => isNumeral first isDigitOrUnderscore lead && places.all isSixtieth
  | _ => false

/-- A digit other than zero. -/
def isPositiveDigit (c : Char) : Bool := '1' ≤ c && c ≤ '9'

/-- The form of an integer. -/
def isInt (text : List Char) : Bool :=
  match (splitSign text).2 with
  | ['0'] => true
  | '0' :: 'b' :: digits => isRun (fun c => c = '0' || c = '1' || c = '_') digits
  | '0' :: 'x' :: digits =>
    isRun (fun c => c = '_' || (Text.hexValue? c).isSome) digits
  | '0' :: digits => isRun (fun c => ('0' ≤ c && c ≤ '7') || c = '_') digits
  | cs => isNumeral isPositiveDigit isDigitOrUnderscore cs || isSexagesimal isPositiveDigit cs

/-- The form of an exponent, which may be absent. -/
def isExponent : List Char → Bool
  | [] => true
  | e :: sign :: digits =>
    (e = 'e' || e = 'E') && (sign = '+' || sign = '-') && isRun isDigit digits
  | _ => false

/-- Digits and then possibly an exponent. -/
def isFraction (cs : List Char) : Bool := isExponent (cs.dropWhile isDigitOrUnderscore)

/-- The form of a floating-point number. -/
def isFloat (text : List Char) : Bool :=
  let cs := (splitSign text).2
  let whole := cs.takeWhile fun c => c != '.'
  match cs.drop whole.length with
  | '.' :: fraction =>
    if whole.isEmpty then
      ["inf", "Inf", "INF"].any (·.toList = fraction) ||
        (text.head? = some '.' &&
          (["nan", "NaN", "NAN"].any (·.toList = fraction) ||
            (fraction.head?.any isDigit && isFraction fraction)))
    else if isNumeral isDigit isDigitOrUnderscore whole then isFraction fraction
    else isSexagesimal isDigit whole && fraction.all isDigitOrUnderscore
  | _ => false

/-! ### Timestamps -/

/-- One or two digits, and the rest. -/
def oneOrTwo? : List Char → Option (List Char × List Char)
  | a :: b :: rest =>
    if !isDigit a then none else if isDigit b then some ([a, b], rest) else some ([a], b :: rest)
  | [a] => if isDigit a then some ([a], []) else none
  | [] => none

/-- Exactly `n` digits, and the rest. -/
def exactly? (n : Nat) (cs : List Char) : Option (List Char × List Char) :=
  if n ≤ cs.length && (cs.take n).all isDigit then some (cs.take n, cs.drop n) else none

/-- The rest behind a character that has to stand here. -/
def expect? (c : Char) : List Char → Option (List Char)
  | d :: cs => if d = c then some cs else none
  | [] => none

/-- The parts of a timestamp, as digits. -/
structure TimestampText where
  /-- The year. -/
  year : List Char
  /-- The month. -/
  month : List Char
  /-- The day. -/
  day : List Char
  /-- Hour, minute, second and fraction, if there is a time of day. -/
  time : Option (List Char × List Char × List Char × List Char) := none
  /-- The offset in seconds, if there is one. -/
  offset : Option Int := none

/-- The offset behind a sign. -/
def offsetText? (sign : Int) (cs : List Char) : Option Int := do
  let (hours, rest) ← oneOrTwo? cs
  let seconds : Int := 3600 * ofDigits hours
  match rest with
  | [] => return sign * seconds
  | ':' :: rest =>
    let (minutes, rest) ← exactly? 2 rest
    if rest.isEmpty then return sign * (seconds + 60 * ofDigits minutes) else none
  | _ => none

/-- What may follow a time of day: nothing, or an offset from universal time. -/
def zoneText? (cs : List Char) : Option (Option Int) :=
  if cs.isEmpty then some none
  else match cs.dropWhile fun c => c = ' ' || c = '\t' with
    | ['Z'] => some (some 0)
    | '+' :: rest => (offsetText? 1 rest).map some
    | '-' :: rest => (offsetText? (-1) rest).map some
    | _ => none

/-- The parts of a timestamp: a date, and possibly a time of day with an offset behind it. -/
def timestampText? (cs : List Char) : Option TimestampText := do
  let (year, cs) ← exactly? 4 cs
  let (month, cs) ← oneOrTwo? (← expect? '-' cs)
  let (day, cs) ← oneOrTwo? (← expect? '-' cs)
  if cs.isEmpty then return { year, month, day }
  let cs ← match cs with
    | 'T' :: cs | 't' :: cs => some cs
    | ' ' :: cs | '\t' :: cs => some (cs.dropWhile fun c => c = ' ' || c = '\t')
    | _ => none
  let (hour, cs) ← oneOrTwo? cs
  let (minute, cs) ← exactly? 2 (← expect? ':' cs)
  let (second, cs) ← exactly? 2 (← expect? ':' cs)
  let (fraction, cs) := match cs with
    | '.' :: cs => (cs.takeWhile isDigit, cs.dropWhile isDigit)
    | cs => ([], cs)
  let offset ← zoneText? cs
  return { year, month, day, time := some (hour, minute, second, fraction), offset }

/-- The form of a timestamp.  A date alone has two digits for month and day. -/
def isTimestamp (cs : List Char) : Bool :=
  match timestampText? cs with
  | some t => t.time.isSome || (t.month.length = 2 && t.day.length = 2)
  | none => false

/-! ### Plain scalars -/

/-- The words for truth values, in lower case. -/
def truthWords : List (String × Bool) :=
  [("yes", true), ("no", false), ("true", true), ("false", false), ("on", true), ("off", false)]

/-- A word of lower-case letters in the three ways in which it may be written. -/
def spellings (word : String) : List String := [word, word.capitalize, word.toUpper]

/-- A text without the line feed at its end, if it ends in one. -/
def dropFinalBreak (cs : List Char) : List Char :=
  if cs.getLast? = some '\n' then cs.dropLast else cs

/-- The tag of a plain scalar.  A line feed at the end belongs to no form and is passed over.  The
marks that no plain scalar starts with have a tag of their own, under which there is no data. -/
def plainTag (scalar : String) : Tag :=
  let cs := dropFinalBreak scalar.toList
  let text := String.ofList cs
  if truthWords.any fun (word, _) => (spellings word).contains text then .bool
  else if isFloat cs then .float
  else if isInt cs then .int
  else if text = "<<" then .merge
  else if scalar = "" || text = "~" || (spellings "null").contains text then .null
  else if isTimestamp cs then .timestamp
  else if text = "=" then .value
  else if ["!", "&", "*"].contains text then .ofUri (Tag.standard ++ "yaml")
  else .str

example : ["1:30", "0x_f", "010", "-0b1", "1.", ".5", "1.0e+5", "+.inf"].map plainTag =
    [.int, .int, .int, .int, .float, .float, .float, .float] := by decide +kernel

example : ["1e5", "1.0e5", "0o17", "08", "-.5", "NaN", "y", "2020-1-1", "-.nan"].map plainTag =
    [.str, .str, .str, .str, .str, .str, .str, .str, .str] := by decide +kernel

end ApiSchema.Yaml
