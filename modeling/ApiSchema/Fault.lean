/-
Failures outside every error channel.

The parts of the library report what they reject in errors of their own.  What
remains are failures that none of them claims: the text of a file is not UTF-8,
a path cannot be handed to the operating system, keys have no order, a value has
no JSON form, a scalar names nothing.  Such a fault ends the program.
-/

namespace ApiSchema

/-- A failure that no part of the library reports as its own. -/
inductive Fault where
  /-- Keys that have no order had to be sorted. -/
  | unorderedKeys
  /-- A value or key has no JSON form. -/
  | noJsonForm
  /-- A file does not hold UTF-8. -/
  | notUtf8
  /-- A path holds a zero character. -/
  | zeroInPath
  /-- A scalar has the form of a number, a date or a character, but names none. -/
  | impossibleScalar
  /-- A scalar is tagged as a number and is empty. -/
  | emptyNumber
  /-- A scalar is tagged as a truth value and is none. -/
  | unknownTruthValue
  /-- A scalar is tagged as a timestamp and is none. -/
  | unknownTimestamp
  /-- A mapping is tagged as a timestamp and has a value key. -/
  | timestampInMapping
  /-- A character number is beyond what the reader can count. -/
  | hugeCharacterNumber
  /-- A place in base 60 is worth more than any floating-point number. -/
  | hugePlace
  /-- An integer has too many digits to be read or written. -/
  | tooManyDigits
  /-- A value that contains itself has to be written out. -/
  | endlessValue
  /-- An indentation is beyond what the writer can count. -/
  | hugeIndent
deriving DecidableEq, Repr

/-- A failure of a part of the library: one of its own errors, or a fault. -/
inductive Failure (ε : Type) where
  /-- An error that the part reports as its own. -/
  | error (cause : ε)
  /-- A failure outside every error channel. -/
  | fault (cause : Fault)
deriving DecidableEq, Repr

/-- The same failure with its own error renamed. -/
def Failure.map {ε δ : Type} (g : ε → δ) : Failure ε → Failure δ
  | error e => .error (g e)
  | fault f => .fault f

end ApiSchema
