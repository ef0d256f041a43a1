/-
Quoted text.

Messages show texts between single quotes, or between double quotes when the
text holds a single quote and no double one.  The delimiter, the backslash and
unprintable characters are escaped, so the quoted form stays on one line.
-/
import ApiSchema.Text.Hex
import ApiSchema.Text.Printable

namespace ApiSchema.Text

/-- The delimiter of a quoted text: double quotes only where they save an escape. -/
def delimiter (cs : List Char) : Char :=
  if cs.contains '\x27' && !cs.contains '\x22' then '\x22' else '\x27'

/-- One character of a quoted text. -/
def quotedChar (delim c : Char) : List Char :=
  if c = delim || c = '\\' then ['\\', c]
  else if c = '\n' then ['\\', 'n']
  else if c = '\r' then ['\\', 'r']
  else if c = '\t' then ['\\', 't']
  else if isPrintable c then [c]
  else if c.toNat < 0x100 then '\\' :: 'x' :: hex 2 c.toNat
  else if c.toNat < 0x10000 then '\\' :: 'u' :: hex 4 c.toNat
  else '\\' :: 'U' :: hex 8 c.toNat

/-- The text between quotes, with escapes where needed. -/
def quoted (s : String) : String :=
  let delim := delimiter s.toList
  String.ofList (delim :: (s.toList.flatMap (quotedChar delim) ++ [delim]))

/-- One byte of a quoted byte string: printable ASCII as itself, others in hexadecimal. -/
def quotedByte (delim : Char) (b : UInt8) : List Char :=
  let c := Char.ofNat b.toNat
  if c = delim || c = '\\' then ['\\', c]
  else if c = '\n' then ['\\', 'n']
  else if c = '\r' then ['\\', 'r']
  else if c = '\t' then ['\\', 't']
  else if 0x20 ≤ b.toNat && b.toNat < 0x7f then [c]
  else '\\' :: 'x' :: hex 2 b.toNat

/-- Bytes between quotes, marked by a leading `b`. -/
def quotedBytes (bs : List UInt8) : String :=
  let delim := delimiter (bs.map fun b => Char.ofNat b.toNat)
  String.ofList ('b' :: delim :: (bs.flatMap (quotedByte delim) ++ [delim]))

example : quoted "it's" = "\"it's\"" := by decide +kernel

example : quoted "a\x07b" = "'a\\x07b'" := by decide +kernel

end ApiSchema.Text
