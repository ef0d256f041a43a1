/-
Pointers into a document.

A local pointer is `#/` followed by segments separated by slashes.  Inside a
segment `~1` stands for a slash and `~0` for a tilde; a tilde before anything
else stands for itself.  Decoding replaces `~1` everywhere first and `~0` after
that, which is why the text `~01` reads as `~1` and not as a slash.
-/
import ApiSchema.Text.Pieces

namespace ApiSchema

/-- A pointer: the text it was read from and its decoded segments. -/
structure Pointer where
  /-- The text as written. -/
  raw : String
  /-- The keys to follow from the root. -/
  segments : List String
deriving DecidableEq, Repr

namespace Pointer

/-! ### Segments -/

/-- Replaces every `~` directly followed by `digit` by `c`, from left to right. -/
def unescapeWith (digit c : Char) : List Char → List Char
  | '~' :: d :: rest =>
    if d = digit then c :: unescapeWith digit c rest
    else '~' :: unescapeWith digit c (d :: rest)
  | d :: rest => d :: unescapeWith digit c rest
  | [] => []

/-- A segment as it stands in a text, decoded. -/
def decode (cs : List Char) : List Char := unescapeWith '0' '~' (unescapeWith '1' '/' cs)

/-- One character of an encoded segment. -/
def escapedChar (c : Char) : List Char :=
  if c = '~' then ['~', '0'] else if c = '/' then ['~', '1'] else [c]

/-- A segment, encoded. -/
def encode (cs : List Char) : List Char := cs.flatMap escapedChar

/-- A key, encoded as one segment of a pointer. -/
def escape (key : String) : String := String.ofList (encode key.toList)

/-! ### Whole pointers -/

/-- What every local pointer starts with. -/
def localStart : String := "#/"

/-- Reads a local pointer; `none` if the text does not start as one. -/
def parse? (text : String) : Option Pointer :=
  match text.toList with
  | '#' :: '/' :: body =>
    some ⟨text, (Text.pieces '/' body).map fun piece => String.ofList (decode piece)⟩
  | _ => none

/-- The pointer text for segments that are written as they are. -/
def join (segments : List String) : String := localStart ++ "/".intercalate segments

/-- The other pointer leads to this place or to one above it. -/
def startsWith (p q : Pointer) : Bool := q.segments.isPrefixOf p.segments

/-- The pointer leads strictly below the place of the other. -/
def isBelow (p q : Pointer) : Bool :=
  p.startsWith q && q.segments.length < p.segments.length

example : (parse? "#/a~1b/~01").map (·.segments) = some ["a/b", "~1"] := by decide +kernel

example : (parse? "#/").map (·.segments) = some [""] := by decide +kernel

end Pointer

end ApiSchema
