/-
Base 64.

Four characters of the alphabet write three bytes.  Characters outside of the
alphabet are skipped.  An equals sign counts as filling only behind at least two
characters of a group; the one that fills the group ends the text, and without
filling the last group has to be full.
-/

namespace ApiSchema.Yaml

/-- The place of a character in the alphabet. -/
def sextet? (c : Char) : Option Nat :=
  if 'A' ≤ c && c ≤ 'Z' then some (c.toNat - 65)
  else if 'a' ≤ c && c ≤ 'z' then some (c.toNat - 71)
  else if '0' ≤ c && c ≤ '9' then some (c.toNat + 4)
  else if c = '+' then some 62
  else if c = '/' then some 63
  else none

/-- The bytes that a group of up to four sextets completes, one less than there are sextets. -/
def groupBytes (group : List Nat) : List UInt8 :=
  let n := (group ++ List.replicate (4 - group.length) 0).foldl (64 * · + ·) 0
  ([n / 65536, n / 256, n].map UInt8.ofNat).take (group.length - 1)

/-- The bytes that a text writes behind the sextets of an open group and some filling. -/
def decodeGroups? (group : List Nat) (filling : Nat) : List Char → Option (List UInt8)
  | [] => if group.isEmpty then some [] else none
  | c :: cs =>
    if c = '=' then
      if group.length < 2 then decodeGroups? group filling cs
      else if 4 ≤ group.length + filling + 1 then some (groupBytes group)
      else decodeGroups? group (filling + 1) cs
    else match sextet? c with
      | none => decodeGroups? group filling cs
      | some s =>
        if group.length < 3 then decodeGroups? (group ++ [s]) 0 cs
        else (decodeGroups? [] 0 cs).map (groupBytes (group ++ [s]) ++ ·)

/-- The bytes that a text in base 64 writes; `none` if it holds more than ASCII or ends early. -/
def decodeBase64? (text : List Char) : Option (List UInt8) :=
  if text.all fun c => c.toNat < 128 then decodeGroups? [] 0 text else none

example : decodeBase64? "aGk=".toList = some [104, 105] := by decide +kernel

example : decodeBase64? "aGk".toList = none := by decide +kernel

end ApiSchema.Yaml
