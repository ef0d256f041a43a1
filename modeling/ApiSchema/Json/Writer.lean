/-
JSON text of a value.

Every item stands on a line of its own, indented by its depth; empty containers
stay on one line.  The text is plain ASCII: other characters are escaped by their
UTF-16 units.  Keys that are not texts are written as the text of their value.
Sorting goes by the keys themselves, before they become text.

The text is written from front to back, so the first value without a JSON form
decides what is reported.  Memory and stack are taken to be as large as the text
and the depth of the value ask for.
-/
import ApiSchema.Fault
import ApiSchema.Value.Entries

namespace ApiSchema.Json

/-- How JSON text is laid out. -/
structure Style where
  /-- Spaces per level. -/
  indent : Nat := 2
  /-- Keys are written in ascending order. -/
  sortKeys : Bool := false
deriving DecidableEq, Repr

/-! ### Texts and numbers -/

/-- The escape of one UTF-16 unit. -/
def unitEscape (n : Nat) : List Char := '\\' :: 'u' :: Text.hex 4 n

/-- One character inside a JSON text. -/
def escapedChar (c : Char) : List Char :=
  if c = '\x22' then ['\\', '\x22']
  else if c = '\\' then ['\\', '\\']
  else if c = '\n' then ['\\', 'n']
  else if c = '\r' then ['\\', 'r']
  else if c = '\t' then ['\\', 't']
  else if c = '\x08' then ['\\', 'b']
  else if c = '\x0c' then ['\\', 'f']
  else if 0x20 ≤ c.toNat ∧ c.toNat < 0x7f then [c]
  else if c.toNat < 0x10000 then unitEscape c.toNat
  else
    let n := c.toNat - 0x10000
    unitEscape (0xd800 + n / 0x400) ++ unitEscape (0xdc00 + n % 0x400)

/-- A text between double quotes. -/
def quote (s : String) : String :=
  String.ofList ('\x22' :: (s.toList.flatMap escapedChar ++ ['\x22']))

/-- How JSON writes numbers.  The values without digits have names of their own. -/
def numberLayout : NumberLayout := { nan := "NaN", infinity := "Infinity" }

/-- The text of a scalar, without quotes around a text. -/
def plainScalar : Scalar → Except Fault String
  | .null => .ok "null"
  | .bool b => .ok (if b then "true" else "false")
  | .int n => if Numeral.isWritable n then .ok (toString n) else .error .tooManyDigits
  | .float x => .ok (numberLayout.write x)
  | .str s => .ok s
  | .bytes _ | .date _ | .moment _ | .set _ _ => .error .noJsonForm
  | .enclosing _ => .error .endlessValue

/-- A scalar as a JSON value. -/
def writeScalar : Scalar → Except Fault String
  | .str s => .ok (quote s)
  | a => plainScalar a

/-- A key: the text of the scalar, always between quotes. -/
def writeKey (k : Scalar) : Except Fault String := (plainScalar k).map quote

/-! ### Containers -/

/-- A line break and the indentation of a level. -/
def newLine (style : Style) (level : Nat) : String :=
  "\n" ++ String.ofList (List.replicate (style.indent * level) ' ')

/-- Items on lines of their own between brackets. -/
def bracket (style : Style) (level : Nat) (opening closing : String) (items : List String) :
    String :=
  if items.isEmpty then opening ++ closing
  else
    opening ++ newLine style (level + 1) ++ ("," ++ newLine style (level + 1)).intercalate items ++
      newLine style level ++ closing

/-- Fields in the order that the style asks for. -/
def arrange {α : Type} (style : Style) (fields : List (Scalar × α)) :
    Except Fault (List (Scalar × α)) :=
  if style.sortKeys then
    match Scalar.sortByKey fields with
    | some sorted => .ok sorted
    | none => .error .unorderedKeys
  else .ok fields

/-- One field: key, colon, value. -/
def writeField (field : Scalar × Except Fault String) : Except Fault String := do
  return (← writeKey field.1) ++ ": " ++ (← field.2)

mutual

/-- The JSON text of a value at a level of indentation. -/
def write (style : Style) (level : Nat) : Value → Except Fault String
  | .scalar s => writeScalar s
  | .array _ items => do
    return bracket style level "[" "]" (← writeItems style (level + 1) items)
  | .mapping es => do
    let fields ← arrange style (writeValues style (level + 1) es)
    return bracket style level "\x7b" "\x7d" (← fields.mapM writeField)

/-- The JSON texts of items. -/
def writeItems (style : Style) (level : Nat) : List Value → Except Fault (List String)
  | [] => .ok []
  | v :: vs => do return (← write style level v) :: (← writeItems style level vs)

/-- Keys with the JSON texts of their values, each of which may fail by itself. -/
def writeValues (style : Style) (level : Nat) :
    List (Scalar × Value) → List (Scalar × Except Fault String)
  | [] => []
  | (k, v) :: es => (k, write style level v) :: writeValues style level es

end

/-- The widest indentation that the writer can count. -/
def countableIndent : Nat := 0x7fffffffffffffff

/-- The JSON text of a value. -/
def render (style : Style) (v : Value) : Except Fault String :=
  if countableIndent < style.indent then .error .hugeIndent
  else write style 0 v

end ApiSchema.Json
