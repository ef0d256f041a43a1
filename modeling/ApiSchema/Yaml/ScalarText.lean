/-
The texts of scalars.

A scalar may be plain, quoted or a block.  Lines are folded in the first two: a
single line break between words is read as a space, and of several breaks in a
row all but the first are kept.  A literal block keeps its breaks; a folded block
keeps those beside indented lines.

A text is made of characters, and half of a surrogate pair is none.  Escapes that
number such a half are left out: they are taken for malformed here.
-/
import ApiSchema.Fault
import ApiSchema.Text.Hex
import ApiSchema.Yaml.Cursor

namespace ApiSchema.Yaml

/-- Reading tokens fails on malformed text, or on an escape that numbers no character. -/
abbrev LexResult := Except (Failure Malformed)

/-- Fails on malformed text. -/
def reject {α : Type} (m : Malformed) : LexResult α := .error (.error m)

/-- A line break followed by more of them, folded. -/
def folded (first : Char) (more : List Char) : List Char :=
  if first ≠ '\n' then first :: more
  else if more.isEmpty then [' ']
  else more

/-! ### Plain scalars -/

/-- What separates two pieces of a plain scalar. -/
structure PlainGap where
  /-- The text that stands for the gap; empty if no piece can follow. -/
  text : List Char
  /-- The gap crosses a line break. -/
  crossed : Bool
  /-- The place behind the gap. -/
  cursor : Cursor

/-- Blank lines and indentation behind a line break of a plain scalar: the breaks, the place behind
them, and whether a document mark ends the scalar there. -/
def plainBreaks : Nat → Cursor → List Char → List Char × Cursor × Bool
  | 0, c, breaks => (breaks, c, false)
  | fuel + 1, c, breaks =>
    if c.peek = some ' ' then plainBreaks fuel c.next breaks
    else match c.lineBreak? with
      | none => (breaks, c, false)
      | some (b, behind) =>
        if behind.atDocumentMark then (breaks ++ [b], behind, true)
        else plainBreaks fuel behind (breaks ++ [b])

/-- The gap that starts here. -/
def plainGap (c : Cursor) : PlainGap :=
  let (spaces, c) := c.span (· = ' ')
  match c.lineBreak? with
  | none => ⟨spaces, false, c⟩
  | some (first, behind) =>
    if behind.atDocumentMark then ⟨[], true, behind⟩
    else
      let (breaks, c, marked) := plainBreaks behind.remaining behind []
      ⟨if marked then [] else folded first breaks, true, c⟩

/-- The characters that end a piece inside brackets and braces. -/
def isFlowEnd (c : Char) : Bool :=
  c = ',' || c = '?' || c = '[' || c = ']' || c = '\x7b' || c = '\x7d'

/-- A colon followed by this character ends a piece. -/
def endsAfterColon (flow : Bool) : Option Char → Bool :=
  endOr fun c => isSeparator c || (flow && isFlowEnd c && c ≠ '?')

/-- The characters of a plain scalar up to white space or the end of the scalar. -/
def plainPiece (flow : Bool) : List Char → List Char
  | [] => []
  | c :: cs =>
    if isSeparator c || (c = ':' && endsAfterColon flow cs.head?) || (flow && isFlowEnd c) then []
    else c :: plainPiece flow cs

/-- A plain scalar.  `indent` is the least column at which its later lines may start.  The answer
tells also whether the last gap crossed a line break. -/
def plainScalar (flow : Bool) (indent : Int) :
    Nat → Cursor → List Char → Bool → List Char × Bool × Cursor
  | 0, c, text, crossed => (text, crossed, c)
  | fuel + 1, c, text, crossed =>
    if c.peek = some '#' then (text, crossed, c)
    else
      let piece := plainPiece flow c.rest
      if piece.isEmpty then (text, crossed, c)
      else
        let gap := plainGap (c.skip piece.length)
        let done := (text ++ piece, gap.crossed, gap.cursor)
        if gap.text.isEmpty || gap.cursor.peek = some '#' ||
            (!flow && (gap.cursor.column : Int) < indent) then done
        else
          let rest := plainPiece flow gap.cursor.rest
          -- the gap belongs to the scalar only if another piece follows it
          if rest.isEmpty then done
          else plainScalar flow indent fuel gap.cursor (text ++ piece ++ gap.text) gap.crossed

/-! ### Quoted scalars -/

/-- Blank lines and indentation behind a line break of a quoted scalar. -/
def quotedBreaks : Nat → Cursor → List Char → LexResult (List Char × Cursor)
  | 0, c, breaks => .ok (breaks, c)
  | fuel + 1, c, breaks =>
    if c.atDocumentMark then reject .markInQuote
    else
      let c := c.skipWhile isSpaceOrTab
      match c.lineBreak? with
      | none => .ok (breaks, c)
      | some (b, behind) => quotedBreaks fuel behind (breaks ++ [b])

/-- The white space of a quoted scalar that starts here, as it reads, and the place behind it. -/
def quotedGap (c : Cursor) : LexResult (List Char × Cursor) := do
  let (spaces, c) := c.span isSpaceOrTab
  match c.lineBreak? with
  | none => if c.rest.isEmpty then reject .unclosedQuote else return (spaces, c)
  | some (first, behind) =>
    let (breaks, c) ← quotedBreaks (behind.remaining + 1) behind []
    return (folded first breaks, c)

/-- The characters with an escape of one letter. -/
def escapedLetter? : Char → Option Char
  | '0' => some '\x00'
  | 'a' => some '\x07'
  | 'b' => some '\x08'
  | 't' | '\t' => some '\t'
  | 'n' => some '\n'
  | 'v' => some '\x0b'
  | 'f' => some '\x0c'
  | 'r' => some '\r'
  | 'e' => some '\x1b'
  | ' ' => some ' '
  | '\x22' => some '\x22'
  | '\\' => some '\\'
  | '/' => some '/'
  | 'N' => some '\x85'
  | '_' => some '\xa0'
  | 'L' => some '\u2028'
  | 'P' => some '\u2029'
  | _ => none

/-- The number of digits of a numeric escape. -/
def escapeWidth? : Char → Option Nat
  | 'x' => some 2
  | 'u' => some 4
  | 'U' => some 8
  | _ => none

/-- The character of a number. -/
def charOfNumber (n : Nat) : LexResult Char :=
  if 0x80000000 ≤ n then .error (.fault .hugeCharacterNumber)
  else if 0x110000 ≤ n then .error (.fault .impossibleScalar)
  else if 0xd800 ≤ n ∧ n < 0xe000 then reject .badEscape
  else .ok (Char.ofNat n)

/-- What an escape reads as, and the place behind it.  The cursor is behind the backslash. -/
def quotedEscape (c : Cursor) : LexResult (List Char × Cursor) :=
  match c.peek with
  | none => reject .badEscape
  | some ch =>
    match escapedLetter? ch, escapeWidth? ch with
    | some e, _ => .ok ([e], c.next)
    | none, some width =>
      let digits := c.next.rest.take width
      if digits.length < width then reject .badEscape
      else match Text.ofHex? digits with
        | none => reject .badEscape
        | some n => do return ([← charOfNumber n], c.skip (width + 1))
    | none, none => match c.lineBreak? with
      | none => reject .badEscape
      | some (_, behind) => quotedBreaks (behind.remaining + 1) behind []

/-- A quoted scalar up to and including its closing quote. -/
def quotedScalar (double : Bool) : Nat → Cursor → List Char → LexResult (List Char × Cursor)
  | 0, _, _ => reject .unclosedQuote
  | fuel + 1, c, text =>
    match c.peek with
    | none => reject .unclosedQuote
    | some ch =>
      if isSeparator ch then do
        let (gap, c) ← quotedGap c
        quotedScalar double fuel c (text ++ gap)
      else if double && ch = '\\' then do
        let (escape, c) ← quotedEscape c.next
        quotedScalar double fuel c (text ++ escape)
      else if ch = (if double then '\x22' else '\x27') then
        if !double && c.peekAt 1 = some '\x27' then
          quotedScalar double fuel (c.skip 2) (text ++ ['\x27'])
        else .ok (text, c.next)
      else
        let (run, c) := c.span fun ch =>
          !isSeparator ch && ch ≠ '\\' && ch ≠ '\x22' && ch ≠ '\x27'
        if run.isEmpty then quotedScalar double fuel c.next (text ++ [ch])
        else quotedScalar double fuel c (text ++ run)

/-! ### Block scalars -/

/-- What the head of a block scalar says. -/
structure BlockHead where
  /-- Whether the line breaks at the end are all kept, or all dropped. -/
  keep : Option Bool
  /-- The indentation of the text relative to its parent, if given. -/
  increment : Option Nat

/-- A chomping indicator. -/
def chomping? : Option Char → Option Bool
  | some '+' => some true
  | some '-' => some false
  | _ => none

/-- The digit of an indentation indicator; zero is none. -/
def increment? (c : Option Char) : LexResult (Option Nat) :=
  match c with
  | some d =>
    if d = '0' then reject .badBlockHead
    else if d.isDigit then .ok (some (d.toNat - 48))
    else .ok none
  | none => .ok none

/-- The indicators of a block scalar, in either order, and the place behind them. -/
def blockIndicators (c : Cursor) : LexResult (BlockHead × Cursor) := do
  match chomping? c.peek with
  | some keep =>
    let c := c.next
    match ← increment? c.peek with
    | some n => return (⟨some keep, some n⟩, c.next)
    | none => return (⟨some keep, none⟩, c)
  | none =>
    match ← increment? c.peek with
    | none => return (⟨none, none⟩, c)
    | some n =>
      let c := c.next
      match chomping? c.peek with
      | some keep => return (⟨some keep, some n⟩, c.next)
      | none => return (⟨none, some n⟩, c)

/-- Passes spaces, a comment and the end of the line. -/
def restOfLine (m : Malformed) (c : Cursor) : LexResult Cursor :=
  let c := c.skipSpaces
  let c := if c.peek = some '#' then c.skipLine else c
  if !atLineEnd c.peek then reject m
  else match c.lineBreak? with
    | some (_, c) => .ok c
    | none => .ok c

/-- The head of a block scalar, up to the start of its first line. -/
def blockHead (c : Cursor) : LexResult (BlockHead × Cursor) := do
  let (head, c) ← blockIndicators c
  if atSpaceOrEnd c.peek then
    return (head, ← restOfLine .badBlockHead c)
  else reject .badBlockHead

/-- Leading blank lines: their breaks, the widest indentation seen, and the place behind them. -/
def leadingBreaks : Nat → Cursor → List Char → Nat → List Char × Nat × Cursor
  | 0, c, breaks, widest => (breaks, widest, c)
  | fuel + 1, c, breaks, widest =>
    if c.peek = some ' ' then
      let c := c.next
      leadingBreaks fuel c breaks (max widest c.column)
    else match c.lineBreak? with
      | some (b, c) => leadingBreaks fuel c (breaks ++ [b]) widest
      | none => (breaks, widest, c)

/-- Passes up to the column `indent`, as far as there are spaces. -/
def passIndent (indent : Nat) (c : Cursor) : Cursor :=
  let run := (c.rest.take (indent - c.column)).takeWhile (· = ' ')
  c.skip run.length

/-- Blank lines between the lines of a block scalar: their breaks, and the place behind them and
behind the indentation of the next line. -/
def innerBreaks (indent : Nat) : Nat → Cursor → List Char → List Char × Cursor
  | 0, c, breaks => (breaks, passIndent indent c)
  | fuel + 1, c, breaks =>
    let c := passIndent indent c
    match c.lineBreak? with
    | some (b, c) => innerBreaks indent fuel c (breaks ++ [b])
    | none => (breaks, c)

/-- A line of a block scalar follows at the cursor. -/
def atBlockLine (indent : Nat) (c : Cursor) : Bool := c.column = indent && !c.rest.isEmpty

/-- The lines of a block scalar.  `breaks` are the blank lines before the line at the cursor.  The
answer is the text, the break that ends its last line, and the blank lines behind it. -/
def blockLines (fold : Bool) (indent : Nat) :
    Nat → Cursor → List Char → List Char → List Char × List Char × List Char × Cursor
  | 0, c, breaks, text => (text, [], breaks, c)
  | fuel + 1, c, breaks, text =>
    let text := text ++ breaks
    let indented := endOr isSpaceOrTab c.peek
    let (line, c) := c.span fun ch => !isBreak ch
    let text := text ++ line
    let (lineEnd, c) := match c.lineBreak? with
      | some (b, c) => ([b], c)
      | none => ([], c)
    let (breaks, c) := innerBreaks indent c.remaining c []
    if atBlockLine indent c then
      let joint :=
        if fold && lineEnd = ['\n'] && !indented && !endOr isSpaceOrTab c.peek then
          if breaks.isEmpty then [' '] else []
        else lineEnd
      blockLines fold indent fuel c breaks (text ++ joint)
    else (text, lineEnd, breaks, c)

/-- A block scalar.  The cursor is behind its mark; `parent` is the indentation around it. -/
def blockScalar (fold : Bool) (parent : Int) (c : Cursor) : LexResult (List Char × Cursor) := do
  let (head, c) ← blockHead c
  let least := max 1 (parent + 1).toNat
  let (indent, breaks, c) := match head.increment with
    | none =>
      let (breaks, widest, c) := leadingBreaks c.remaining c [] 0
      (max least widest, breaks, c)
    | some n =>
      let indent := least + n - 1
      let (breaks, c) := innerBreaks indent c.remaining c []
      (indent, breaks, c)
  let (text, lineEnd, breaks, c) :=
    if atBlockLine indent c then blockLines fold indent (c.remaining + 1) c breaks []
    else ([], [], breaks, c)
  let ending := match head.keep with
    | none => lineEnd
    | some false => []
    | some true => lineEnd ++ breaks
  return (text ++ ending, c)

end ApiSchema.Yaml
