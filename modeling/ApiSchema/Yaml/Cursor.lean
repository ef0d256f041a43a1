/-
Characters of a YAML text and a place in it.

Layout matters in YAML: tokens are judged by their column, and a key has to
stand on the line of its colon.  A `Cursor` is the rest of the text together with
the line and column it starts at.
-/
import ApiSchema.Yaml.Malformed

namespace ApiSchema.Yaml

/-! ### Character classes -/

/-- The character may stand in a document. -/
def isAllowed (c : Char) : Bool :=
  let n := c.toNat
  n = 0x09 || n = 0x0a || n = 0x0d || (0x20 ≤ n && n ≤ 0x7e) || n = 0x85 ||
    (0xa0 ≤ n && n ≤ 0xd7ff) || (0xe000 ≤ n && n ≤ 0xfffd) || 0x10000 ≤ n

/-- The character ends a line. -/
def isBreak (c : Char) : Bool :=
  c = '\n' || c = '\x85' || c = '\u2028' || c = '\u2029'

/-- A space or a tab. -/
def isSpaceOrTab (c : Char) : Bool := c = ' ' || c = '\t'

/-- The character separates tokens. -/
def isSeparator (c : Char) : Bool := isSpaceOrTab c || isBreak c

/-- A letter or digit of ASCII, a hyphen or an underscore. -/
def isWordChar (c : Char) : Bool := c.isAlphanum || c = '-' || c = '_'

/-- The text ends here, or the character is in the class. -/
def endOr (p : Char → Bool) : Option Char → Bool
  | none => true
  | some c => p c

/-- The line, or the text, ends here. -/
def atLineEnd : Option Char → Bool := endOr isBreak

/-- A space, or the end of a line or of the text. -/
def atSpaceOrEnd : Option Char → Bool := endOr fun c => c = ' ' || isBreak c

/-- A separator, or the end of the text. -/
def atSeparator : Option Char → Bool := endOr isSeparator

/-- Turns carriage returns into line feeds, one for a pair of the two. -/
def unifyBreaks : List Char → List Char
  | '\r' :: '\n' :: cs => '\n' :: unifyBreaks cs
  | '\r' :: cs => '\n' :: unifyBreaks cs
  | c :: cs => c :: unifyBreaks cs
  | [] => []

/-! ### Cursors -/

/-- The rest of a text and where it starts. -/
structure Cursor where
  /-- The characters from here on. -/
  rest : List Char
  /-- The number of all characters of the text. -/
  size : Nat
  /-- The number of characters before. -/
  index : Nat := 0
  /-- The number of line breaks before. -/
  line : Nat := 0
  /-- The number of characters before in this line, byte order marks not counted. -/
  column : Nat := 0

namespace Cursor

/-- The start of a text. -/
def start (text : List Char) : Cursor := { rest := text, size := text.length }

/-- The number of characters from here on.  A loop over a text passes one of them at each turn. -/
def remaining (c : Cursor) : Nat := c.size - c.index

/-- The next character. -/
def peek (c : Cursor) : Option Char := c.rest.head?

/-- The character after `n` others. -/
def peekAt (c : Cursor) (n : Nat) : Option Char := c.rest[n]?

/-- Passes one character. -/
def next (c : Cursor) : Cursor :=
  match c.rest with
  | [] => c
  | ch :: rest =>
    if isBreak ch then { c with rest, index := c.index + 1, line := c.line + 1, column := 0 }
    else
      let column := if ch = '\ufeff' then c.column else c.column + 1
      { c with rest, index := c.index + 1, column }

/-- Passes `n` characters. -/
def skip : Nat → Cursor → Cursor
  | 0, c => c
  | n + 1, c => skip n c.next

/-- The longest run of characters of a class, and the place behind it. -/
def span (c : Cursor) (p : Char → Bool) : List Char × Cursor :=
  let run := c.rest.takeWhile p
  (run, c.skip run.length)

/-- The place behind the longest run of characters of a class. -/
def skipWhile (c : Cursor) (p : Char → Bool) : Cursor := (c.span p).2

/-- The place behind spaces. -/
def skipSpaces (c : Cursor) : Cursor := c.skipWhile (· = ' ')

/-- The place behind the characters of this line. -/
def skipLine (c : Cursor) : Cursor := c.skipWhile fun ch => !isBreak ch

/-- The line break here and the place behind it.  Two of the breaks are kept as they are, the others
are read as a line feed. -/
def lineBreak? (c : Cursor) : Option (Char × Cursor) :=
  match c.peek with
  | some ch =>
    if !isBreak ch then none
    else some (if ch = '\u2028' ∨ ch = '\u2029' then ch else '\n', c.next)
  | none => none

/-- Three dots or three hyphens start here, with a separator behind them. -/
def atDocumentMark (c : Cursor) : Bool :=
  match c.rest with
  | '-' :: '-' :: '-' :: rest => atSeparator rest.head?
  | '.' :: '.' :: '.' :: rest => atSeparator rest.head?
  | _ => false

end Cursor

end ApiSchema.Yaml
