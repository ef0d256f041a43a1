/-
From characters to tokens.

One step passes white space and comments, closes the block collections that end
at the new column, and reads one token.  A plain or quoted scalar, an alias or a
closed flow collection may turn out to be a key once a colon follows it on its
line; until then it is a candidate, and `key` tokens are put in front of it
afterwards.

Every step but the last takes at least one character, so a text has at most one
step more than it has characters.
-/
import ApiSchema.Numeric.Decimal
import ApiSchema.Yaml.ScalarText
import ApiSchema.Yaml.Token

namespace ApiSchema.Yaml

/-- A token that is a key if a colon follows. -/
structure KeyCandidate where
  /-- The number of tokens before it. -/
  position : Nat
  /-- The number of characters before it. -/
  index : Nat
  /-- Its line. -/
  line : Nat
  /-- Its column. -/
  column : Nat
  /-- It stands where a block mapping has its keys, so it has to be one. -/
  required : Bool

/-- What the lexer knows between two tokens. -/
structure Lexer where
  /-- The place in the text. -/
  cursor : Cursor
  /-- How many brackets and braces are open. -/
  flowLevel : Nat := 0
  /-- The column of the innermost block collection; below zero outside of all. -/
  indent : Int := -1
  /-- The columns of the block collections around it. -/
  outer : List Int := []
  /-- A key may start here. -/
  keyAllowed : Bool := true
  /-- The candidates for keys, by flow level. -/
  candidates : List (Nat × KeyCandidate) := []
  /-- The tokens so far. -/
  tokens : Array Token := #[]

namespace Lexer

/-- Adds a token. -/
def emit (s : Lexer) (t : Token) : Lexer := { s with tokens := s.tokens.push t }

/-- Adds a token and moves the cursor. -/
def emitAt (s : Lexer) (t : Token) (c : Cursor) : Lexer :=
  { s with tokens := s.tokens.push t, cursor := c }

/-- The token at the cursor may be inside brackets or braces. -/
def inFlow (s : Lexer) : Bool := s.flowLevel != 0

/-! ### White space -/

/-- Passes spaces, comments and line breaks.  In block context a key may start behind a break. -/
def passBlank : Nat → Lexer → Lexer
  | 0, s => s
  | fuel + 1, s =>
    let c := s.cursor.skipSpaces
    let c := if c.peek = some '#' then c.skipLine else c
    match c.lineBreak? with
    | some (_, c) => passBlank fuel { s with cursor := c, keyAllowed := s.keyAllowed || !s.inFlow }
    | none => { s with cursor := c }

/-! ### Indentation -/

/-- Closes the block collections that are indented deeper than a column. -/
def closeTo (column : Int) : List Int → Lexer → Lexer
  | outer, s =>
    if s.inFlow || s.indent ≤ column then s
    else match outer with
      | [] => { s.emit .blockEnd with indent := -1, outer := [] }
      | i :: rest => closeTo column rest { s.emit .blockEnd with indent := i, outer := rest }

/-- Closes the block collections that end at a column. -/
def unwind (s : Lexer) (column : Int) : Lexer := closeTo column s.outer s

/-- Opens a block collection at a column deeper than the current one. -/
def openAt (s : Lexer) (column : Nat) : Option Lexer :=
  if s.indent < column then
    some { s with indent := column, outer := s.indent :: s.outer }
  else none

/-! ### Candidates for keys -/

/-- A colon at the cursor is out of reach of the candidate, which stands on another line or more
than 1024 characters back. -/
def isStale (s : Lexer) (k : KeyCandidate) : Bool :=
  k.line != s.cursor.line || 1024 < s.cursor.index - k.index

/-- Gives up the candidates that are out of reach. -/
def dropStale (s : Lexer) : LexResult Lexer :=
  if s.candidates.any fun (_, k) => s.isStale k && k.required then reject .missingColon
  else .ok { s with candidates := s.candidates.filter fun (_, k) => !s.isStale k }

/-- Gives up the candidate of this flow level. -/
def dropCandidate (s : Lexer) : LexResult Lexer :=
  match s.candidates.lookup s.flowLevel with
  | none => .ok s
  | some k =>
    if k.required then reject .missingColon
    else .ok { s with candidates := s.candidates.filter (·.1 != s.flowLevel) }

/-- Makes the token that starts here a candidate, where keys are allowed. -/
def addCandidate (s : Lexer) : LexResult Lexer := do
  if s.keyAllowed then
    let s ← s.dropCandidate
    let k : KeyCandidate :=
      { position := s.tokens.size, index := s.cursor.index, line := s.cursor.line,
        column := s.cursor.column, required := !s.inFlow && s.indent = s.cursor.column }
    return { s with candidates := (s.flowLevel, k) :: s.candidates }
  else return s

/-! ### Words -/

/-- The number that a row of digits writes. -/
def number (c : Cursor) : LexResult (Nat × Cursor) :=
  let (digits, c) := c.span Numeral.isDigit
  if digits.isEmpty then reject .badDirective
  else if Numeral.maxDigits < digits.length then .error (.fault .tooManyDigits)
  else .ok (Numeral.ofDigits digits, c)

/-- The characters of a tag that need no escape. -/
def isTagChar (c : Char) : Bool :=
  c.isAlphanum || "-;/?:@&=+$,_.!~*\x27()[]".toList.contains c

/-- Bytes written as percent signs with two digits each. -/
def escapedBytes : Nat → Cursor → List UInt8 → LexResult (List UInt8 × Cursor)
  | fuel + 1, c, bytes =>
    match c.rest with
    | '%' :: rest =>
      let digits := rest.take 2
      match digits.length, Text.ofHex? digits with
      | 2, some n => escapedBytes fuel (c.skip 3) (bytes ++ [n.toUInt8])
      | _, _ => reject .badTag
    | _ => .ok (bytes, c)
  | 0, c, bytes => .ok (bytes, c)

/-- The text of a tag, of which there has to be at least one character. -/
def tagUri : Nat → Cursor → List Char → LexResult (String × Cursor)
  | 0, _, _ => reject .badTag
  | fuel + 1, c, text =>
    let (run, c) := c.span isTagChar
    let text := text ++ run
    if c.peek = some '%' then do
      let (bytes, c) ← escapedBytes c.remaining c []
      match String.fromUTF8? ⟨bytes.toArray⟩ with
      | some s => tagUri fuel c (text ++ s.toList)
      | none => reject .badTag
    else if text.isEmpty then reject .badTag
    else .ok (String.ofList text, c)

/-- The abbreviation of a tag: one exclamation mark, or two with a word between them.  A single mark
followed by a space is one too. -/
def tagHandle (c : Cursor) : LexResult (String × Cursor) :=
  if c.peek != some '!' then reject .badTag
  else
    let inside := c.next
    if inside.peek = some ' ' then .ok ("!", inside)
    else
      let (word, behind) := inside.span isWordChar
      if behind.peek = some '!' then .ok (String.ofList ('!' :: word ++ ['!']), behind.next)
      else reject .badTag

/-! ### Directives, anchors and tags -/

/-- The value of a version directive. -/
def versionDirective (c : Cursor) : LexResult (Directive × Cursor) := do
  let (major, c) ← number c.skipSpaces
  if c.peek != some '.' then reject .badDirective
  else
    let (minor, c) ← number c.next
    if atSpaceOrEnd c.peek then return (.version major minor, c) else reject .badDirective

/-- The value of a directive that declares an abbreviation. -/
def tagDirective (c : Cursor) : LexResult (Directive × Cursor) := do
  let (handle, c) ← tagHandle c.skipSpaces
  if c.peek != some ' ' then reject .badDirective
  else
    let c := c.skipSpaces
    let (expansion, c) ← tagUri (c.remaining + 1) c []
    if atSpaceOrEnd c.peek then return (.tag handle expansion, c) else reject .badDirective

/-- A directive line. -/
def directive (c : Cursor) : LexResult (Directive × Cursor) := do
  let (name, c) := c.next.span isWordChar
  if name.isEmpty || !atSpaceOrEnd c.peek then reject .badDirective
  else
    let (d, c) ←
      if name = "YAML".toList then versionDirective c
      else if name = "TAG".toList then tagDirective c
      else pure (.reserved, c.skipLine)
    return (d, ← restOfLine .badDirective c)

/-- The characters that may follow the name of an anchor. -/
def isAnchorEnd (c : Char) : Bool := isSeparator c || "?:,]\x7d%@\x60".toList.contains c

/-- The name of an anchor or alias, behind its mark. -/
def anchorName (c : Cursor) : LexResult (String × Cursor) :=
  let (name, c) := c.next.span isWordChar
  if name.isEmpty || !endOr isAnchorEnd c.peek then reject .badAnchor
  else .ok (String.ofList name, c)

/-- A tag.  One written in full stands between angle brackets; otherwise it has an abbreviation if
an exclamation mark occurs in it again. -/
def tagText (c : Cursor) : LexResult (TagText × Cursor) := do
  let (tag, c) ←
    if c.peekAt 1 = some '<' then do
      let inside := c.skip 2
      let (suffix, c) ← tagUri (inside.remaining + 1) inside []
      if c.peek = some '>' then pure (⟨none, suffix⟩, c.next) else reject .badTag
    else if atSeparator (c.peekAt 1) then pure (⟨none, "!"⟩, c.next)
    else do
      let word := c.next.rest.takeWhile fun ch => !(ch = ' ' || isBreak ch)
      let (handle, c) ← if word.contains '!' then tagHandle c else pure ("!", c.next)
      let (suffix, c) ← tagUri (c.remaining + 1) c []
      pure (⟨some handle, suffix⟩, c)
  if atSpaceOrEnd c.peek then return (tag, c) else reject .badTag

/-! ### One token -/

/-- Reads one token, and answers with the place behind it. -/
abbrev TokenReader := Cursor → LexResult (Token × Cursor)

/-- A mark in the first column that is about the whole document. -/
def documentToken (s : Lexer) (read : TokenReader) : LexResult Lexer := do
  let s ← (s.unwind (-1)).dropCandidate
  let (t, c) ← read s.cursor
  return { s.emitAt t c with keyAllowed := false }

/-- An opening bracket or brace. -/
def openFlow (s : Lexer) (t : Token) : LexResult Lexer := do
  let s ← s.addCandidate
  return { s.emitAt t s.cursor.next with flowLevel := s.flowLevel + 1, keyAllowed := true }

/-- A closing bracket or brace. -/
def closeFlow (s : Lexer) (t : Token) : LexResult Lexer := do
  let s ← s.dropCandidate
  return { s.emitAt t s.cursor.next with flowLevel := s.flowLevel - 1, keyAllowed := false }

/-- A comma. -/
def flowEntry (s : Lexer) : LexResult Lexer := do
  let s ← s.dropCandidate
  return { s.emitAt .flowEntry s.cursor.next with keyAllowed := true }

/-- Opens the block collection that a mark at the cursor belongs to, if it is a new one.  In block
context the mark is `misplaced` where no key may start. -/
def openBlock (s : Lexer) (start : Token) (misplaced : Malformed) : LexResult Lexer :=
  if s.inFlow then .ok s
  else if !s.keyAllowed then reject misplaced
  else match s.openAt s.cursor.column with
    | some s => .ok (s.emit start)
    | none => .ok s

/-- The hyphen of a sequence entry. -/
def blockEntry (s : Lexer) : LexResult Lexer := do
  let s ← s.openBlock .blockSequenceStart .misplacedEntry
  let s ← { s with keyAllowed := true }.dropCandidate
  return s.emitAt .blockEntry s.cursor.next

/-- The question mark of a key. -/
def keyMark (s : Lexer) : LexResult Lexer := do
  let s ← s.openBlock .blockMappingStart .misplacedKey
  let s ← { s with keyAllowed := !s.inFlow }.dropCandidate
  return s.emitAt .key s.cursor.next

/-- The colon before a value.  It makes the candidate of its flow level a key. -/
def valueMark (s : Lexer) : LexResult Lexer := do
  match s.candidates.lookup s.flowLevel with
  | some k =>
    let s := { s with candidates := s.candidates.filter (·.1 != s.flowLevel) }
    let s := { s with tokens := s.tokens.insertIdxIfInBounds k.position .key }
    let s := if s.inFlow then s else match s.openAt k.column with
      | some s => { s with tokens := s.tokens.insertIdxIfInBounds k.position .blockMappingStart }
      | none => s
    return { s.emitAt .value s.cursor.next with keyAllowed := false }
  | none =>
    let s ← s.openBlock .blockMappingStart .misplacedValue
    let s ← { s with keyAllowed := !s.inFlow }.dropCandidate
    return s.emitAt .value s.cursor.next

/-- A token that may be a key. -/
def candidateToken (s : Lexer) (read : TokenReader) : LexResult Lexer := do
  let s ← s.addCandidate
  let (t, c) ← read s.cursor
  return { s.emitAt t c with keyAllowed := false }

/-- A quoted scalar. -/
def quotedToken (double : Bool) : TokenReader := fun c => do
  let (text, c) ← quotedScalar double (c.remaining + 1) c.next []
  return (.scalar (String.ofList text) false, c)

/-- A block scalar.  A key may follow it. -/
def blockToken (s : Lexer) (fold : Bool) : LexResult Lexer := do
  let s ← { s with keyAllowed := true }.dropCandidate
  let (text, c) ← blockScalar fold s.indent s.cursor.next
  return s.emitAt (.scalar (String.ofList text) false) c

/-- A plain scalar.  A key may follow it if a line break does. -/
def plainToken (s : Lexer) : LexResult Lexer := do
  let s ← s.addCandidate
  let (text, crossed, c) :=
    plainScalar s.inFlow (s.indent + 1) (s.cursor.remaining + 1) s.cursor [] false
  return { s.emitAt (.scalar (String.ofList text) true) c with keyAllowed := crossed }

/-- The characters that start no plain scalar by themselves. -/
def isIndicator (c : Char) : Bool :=
  isSeparator c || "-?:,[]\x7b\x7d#&*!|>\x27\x22%@\x60".toList.contains c

/-- A plain scalar starts at the cursor. -/
def atPlain (s : Lexer) (ch : Char) : Bool :=
  !isIndicator ch ||
    (!atSeparator (s.cursor.peekAt 1) && (ch = '-' || (!s.inFlow && (ch = '?' || ch = ':'))))

/-- The token that starts with the character at the cursor. -/
def token (s : Lexer) (ch : Char) : LexResult Lexer :=
  let spaced := atSeparator (s.cursor.peekAt 1)
  let first := s.cursor.column = 0
  if ch = '%' && first then
    s.documentToken fun c => do
      let (d, c) ← directive c
      return (.directive d, c)
  else if ch = '-' && first && s.cursor.atDocumentMark then
    s.documentToken fun c => .ok (.documentStart, c.skip 3)
  else if ch = '.' && first && s.cursor.atDocumentMark then
    s.documentToken fun c => .ok (.documentEnd, c.skip 3)
  else if ch = '[' then s.openFlow .flowSequenceStart
  else if ch = '\x7b' then s.openFlow .flowMappingStart
  else if ch = ']' then s.closeFlow .flowSequenceEnd
  else if ch = '\x7d' then s.closeFlow .flowMappingEnd
  else if ch = ',' then s.flowEntry
  else if ch = '-' && spaced then s.blockEntry
  else if ch = '?' && (s.inFlow || spaced) then s.keyMark
  else if ch = ':' && (s.inFlow || spaced) then s.valueMark
  else if ch = '*' then
    s.candidateToken fun c => do
      let (name, c) ← anchorName c
      return (.alias name, c)
  else if ch = '&' then
    s.candidateToken fun c => do
      let (name, c) ← anchorName c
      return (.anchor name, c)
  else if ch = '!' then
    s.candidateToken fun c => do
      let (t, c) ← tagText c
      return (.tag t, c)
  else if ch = '|' && !s.inFlow then s.blockToken false
  else if ch = '>' && !s.inFlow then s.blockToken true
  else if ch = '\x27' then s.candidateToken (quotedToken false)
  else if ch = '\x22' then s.candidateToken (quotedToken true)
  else if s.atPlain ch then s.plainToken
  else reject (.noTokenStart ch)

/-- The end of the text. -/
def finish (s : Lexer) : LexResult Lexer := do
  let s ← (s.unwind (-1)).dropCandidate
  return s.emit .streamEnd

/-- One step; `none` behind the last token. -/
def step (s : Lexer) : LexResult (Lexer × Bool) := do
  let s := s.passBlank (s.cursor.remaining + 1)
  let s ← s.dropStale
  let s := s.unwind s.cursor.column
  match s.cursor.peek with
  | none => return (← s.finish, true)
  | some ch => return (← s.token ch, false)

/-- The tokens that nothing behind the cursor can change: those in front of the first candidate for
a key that a colon may still reach. -/
def settled (s : Lexer) : List Token :=
  let pending := s.candidates.filter fun (_, k) => !s.isStale k
  s.tokens.toList.take (pending.foldl (fun n (_, k) => min n k.position) s.tokens.size)

/-- The tokens up to the end of the text.  If something cannot be read, they end before it, with the
last settled token. -/
def run : Nat → Lexer → List Token × Option (Failure Malformed)
  | 0, s => (s.settled, some (.error .endOfTokens))
  | fuel + 1, s => match s.step with
    | .error e => (s.settled, some e)
    | .ok (s, true) => (s.tokens.toList, none)
    | .ok (s, false) => run fuel s

end Lexer

/-- The tokens of a text, and why they stop short of its end if they do.  A byte order mark in front
is passed over. -/
def tokens (text : List Char) : List Token × Option (Failure Malformed) :=
  let start := Cursor.start text
  let cursor := if start.peek = some '\ufeff' then start.next else start
  Lexer.run (text.length + 2) { cursor }

end ApiSchema.Yaml
