/-
Control sequences of terminals.

A control sequence is an escape character and an opening bracket, then any
number of parameter characters, any number of intermediate ones and one final
character.  It moves the cursor or sets a colour and is no text.  What is printed
where no terminal reads it goes without control sequences.
-/

namespace ApiSchema.Text

/-- A parameter of a control sequence. -/
def isParameter (c : Char) : Bool := '0' ≤ c && c ≤ '?'

/-- An intermediate character of a control sequence. -/
def isIntermediate (c : Char) : Bool := ' ' ≤ c && c ≤ '/'

/-- The last character of a control sequence. -/
def isFinal (c : Char) : Bool := '@' ≤ c && c ≤ '~'

/-- The length of the control sequence that starts here, less one. -/
def controlTail? : List Char → Option Nat
  | '\x1b' :: '[' :: cs =>
    let parameters := cs.takeWhile isParameter
    let intermediates := (cs.drop parameters.length).takeWhile isIntermediate
    let inner := parameters.length + intermediates.length
    if (cs.drop inner).head?.any isFinal then some (inner + 2) else none
  | _ => none

/-- The characters that belong to no control sequence, from the place `skip` characters ahead. -/
def plainChars : Nat → List Char → List Char
  | _, [] => []
  | skip + 1, _ :: cs => plainChars skip cs
  | 0, c :: cs => match controlTail? (c :: cs) with
    | some tail => plainChars tail cs
    | none => c :: plainChars 0 cs

/-- The text without its control sequences. -/
def withoutControls (s : String) : String := String.ofList (plainChars 0 s.toList)

example : withoutControls "a\x1b[38;5;1mb\x1b[ q\x1b[1" = "ab\x1b[1" := by decide +kernel

end ApiSchema.Text
