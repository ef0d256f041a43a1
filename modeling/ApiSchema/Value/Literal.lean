/-
Values as messages show them.

A message that quotes a value writes it on one line: lists in square brackets,
tuples in round ones, mappings in braces, texts quoted.  A value that contains
itself is shown once; where it would start again, dots stand between its
brackets.
-/
import ApiSchema.Value.Basic

namespace ApiSchema.Value

/-- Items between round brackets; a single item keeps a comma. -/
def tupleLiteral : List String → String
  | [item] => "(" ++ item ++ ",)"
  | items => "(" ++ ", ".intercalate items ++ ")"

/-- Items between square brackets. -/
def listLiteral (items : List String) : String := "[" ++ ", ".intercalate items ++ "]"

mutual

/-- A value as messages show it. -/
def literal : Value → String
  | scalar s => s.literal
  | array .list items => listLiteral (literals items)
  | array .tuple items => tupleLiteral (literals items)
  | mapping es => "\x7b" ++ ", ".intercalate (entryLiterals es) ++ "\x7d"

/-- Items as messages show them. -/
def literals : List Value → List String
  | [] => []
  | v :: vs => literal v :: literals vs

/-- Entries as messages show them. -/
def entryLiterals : List (Scalar × Value) → List String
  | [] => []
  | (k, v) :: es => (k.literal ++ ": " ++ literal v) :: entryLiterals es

end

/-! ### Values that contain themselves -/

mutual

/-- The two values agree as far as both are written out. -/
def agrees : Value → Value → Bool
  | scalar (.enclosing _), _ | _, scalar (.enclosing _) => true
  | scalar s, scalar t => s = t
  | array k vs, array l ws => k = l && itemsAgree vs ws
  | mapping es, mapping fs => entriesAgree es fs
  | _, _ => false

/-- Items agree as far as they are written out. -/
def itemsAgree : List Value → List Value → Bool
  | [], [] => true
  | v :: vs, w :: ws => agrees v w && itemsAgree vs ws
  | _, _ => false

/-- Entries agree as far as they are written out. -/
def entriesAgree : List (Scalar × Value) → List (Scalar × Value) → Bool
  | [], [] => true
  | (k, v) :: es, (l, w) :: fs => k = l && (agrees v w && entriesAgree es fs)
  | _, _ => false

end

mutual

/-- The value up to the places where one of the values around it starts again. -/
def once (around : List Value) : Value → Value
  | scalar s => scalar s
  | array kind items =>
    let v := array kind items
    if around.any v.agrees then scalar (.enclosing false)
    else array kind (itemsOnce (v :: around) items)
  | mapping es =>
    let v := mapping es
    if around.any v.agrees then scalar (.enclosing true)
    else mapping (entriesOnce (v :: around) es)

/-- Items up to the places where a value around them starts again. -/
def itemsOnce (around : List Value) : List Value → List Value
  | [] => []
  | v :: vs => once around v :: itemsOnce around vs

/-- Entries up to the places where a value around them starts again. -/
def entriesOnce (around : List Value) : List (Scalar × Value) → List (Scalar × Value)
  | [] => []
  | (k, v) :: es => (k, once around v) :: entriesOnce around es

end

/-- A list of these items as messages show it. -/
def itemsLiteral (items : List Value) : String :=
  listLiteral (literals (itemsOnce [] items))

/-! ### Digits -/

mutual

/-- All scalars in the value can be written. -/
def isWritable : Value → Bool
  | scalar s => s.isWritable
  | array _ items => itemsWritable items
  | mapping es => entriesWritable es

/-- All scalars in items can be written. -/
def itemsWritable : List Value → Bool
  | [] => true
  | v :: vs => isWritable v && itemsWritable vs

/-- All scalars in entries can be written, keys included. -/
def entriesWritable : List (Scalar × Value) → Bool
  | [] => true
  | (k, v) :: es => k.isWritable && (isWritable v && entriesWritable es)

end

end ApiSchema.Value
