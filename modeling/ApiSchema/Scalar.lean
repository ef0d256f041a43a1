/-
Scalars: the values without parts, and the keys of mappings.

Two keys may be written differently and still be one key: `1`, `1.0` and `true`
are equal numbers, and so are two moments that name one instant.  `identity`
gives each scalar a normal form under that equality, so that being the same key
is being equal in normal form.
-/
import ApiSchema.Calendar
import ApiSchema.Numeric.Decimal
import ApiSchema.Numeric.Layout
import ApiSchema.Text.Quoted

namespace ApiSchema

/-- A value without parts. -/
inductive Scalar where
  /-- No value. -/
  | null
  /-- A truth value. -/
  | bool (b : Bool)
  /-- An integer of any size. -/
  | int (n : Int)
  /-- A floating-point number. -/
  | float (x : Binary64)
  /-- A text. -/
  | str (s : String)
  /-- A byte string. -/
  | bytes (bs : List UInt8)
  /-- A date. -/
  | date (d : Date)
  /-- A date with a time of day. -/
  | moment (t : Moment)
  /-- A set.  Nothing looks into it, so it is known by what messages show of its members, in the
  order of the document, and by whether all of them can be written. -/
  | set (members : List String) (writable : Bool)
  /-- The place of a mapping, or of an array, that stands around this place.  A value that contains
  itself is written out to some depth and ends in such places. -/
  | enclosing (isMapping : Bool)
deriving DecidableEq, Repr

instance : Inhabited Scalar := ⟨.null⟩

namespace Scalar

/-! ### Identity of keys -/

/-- What a key is, whatever its written form. -/
inductive Identity where
  /-- No value. -/
  | null
  /-- A whole number. -/
  | whole (n : Int)
  /-- A number that is not whole. -/
  | fraction (x : Binary64)
  /-- A text. -/
  | text (s : String)
  /-- A byte string. -/
  | bytes (bs : List UInt8)
  /-- A date. -/
  | date (d : Date)
  /-- A moment of a clock whose offset is unknown. -/
  | clock (microseconds : Nat)
  /-- An instant. -/
  | instant (microseconds : Int)
  /-- A set. -/
  | set (members : List String)
  /-- A value around this one. -/
  | enclosing (isMapping : Bool)
deriving DecidableEq, Repr

/-- The normal form of a key. -/
def identity : Scalar → Identity
  | null => .null
  | bool b => .whole (if b then 1 else 0)
  | int n => .whole n
  | float x => match x.toInt? with
    | some n => .whole n
    | none => .fraction x
  | str s => .text s
  | bytes bs => .bytes bs
  | date d => .date d
  | moment t => match t.instant? with
    | some i => .instant i
    | none => .clock t.clock
  | set members _ => .set members
  | enclosing isMapping => .enclosing isMapping

/-- The two scalars are one key. -/
def same (a b : Scalar) : Bool := a.identity = b.identity

@[simp] theorem same_self (a : Scalar) : same a a = true := by simp [same]

theorem same_comm (a b : Scalar) : same a b = same b a := by simp [same, eq_comm]

/-- A text is the same key as itself only. -/
@[simp] theorem same_str {a : Scalar} {s : String} : same a (str s) = true ↔ a = str s := by
  cases a with
  | float x => cases h : x.toInt? <;> simp [same, identity, h]
  | moment t => cases h : t.instant? <;> simp [same, identity, h]
  | _ => simp [same, identity]

/-! ### Order of keys -/

/-- A number with its place on the extended line, as far as it has one. -/
inductive Quantity where
  /-- Below every number. -/
  | negInfinity
  /-- The quotient `num / den`. -/
  | ratio (num : Int) (den : Nat)
  /-- Above every number. -/
  | posInfinity
  /-- In no order with anything. -/
  | undefined

/-- The quantity of a floating-point number. -/
def Quantity.ofFloat (x : Binary64) : Quantity :=
  match x with
  | .nan _ => .undefined
  | .infinite true => .negInfinity
  | .infinite false => .posInfinity
  | x => match x.toRatio? with
    | some (num, den) => .ratio num den
    | none => .undefined

/-- Strictly less, exactly. -/
def Quantity.lt : Quantity → Quantity → Bool
  | undefined, _ | _, undefined => false
  | negInfinity, negInfinity => false
  | negInfinity, _ => true
  | _, negInfinity => false
  | posInfinity, _ => false
  | _, posInfinity => true
  | ratio a b, ratio c d => a * d < c * b

/-- The quantity of a scalar that is a number; truth values are the numbers zero and one. -/
def quantity? : Scalar → Option Quantity
  | bool b => some (.ratio (if b then 1 else 0) 1)
  | int n => some (.ratio n 1)
  | float x => some (.ofFloat x)
  | _ => none

/-- Whether a byte string comes first in the order of bytes. -/
def bytesLt : List UInt8 → List UInt8 → Bool
  | _, [] => false
  | [], _ :: _ => true
  | a :: as, b :: bs => a < b || (a = b && bytesLt as bs)

/-- Whether one key sorts before another: texts by code point, numbers by value, dates and moments
in time.  Keys of different kinds have no order, nor do two nulls. -/
def lt? (a b : Scalar) : Option Bool :=
  match a, b with
  | str s, str t => some (s < t)
  | bytes s, bytes t => some (bytesLt s t)
  | date d, date e => some (d.ordinal < e.ordinal)
  | moment t, moment u => match t.instant?, u.instant? with
    | some i, some j => some (i < j)
    | none, none => some (t.clock < u.clock)
    | _, _ => none
  | a, b => match a.quantity?, b.quantity? with
    | some p, some q => some (p.lt q)
    | _, _ => none

/-! ### Sorting by key

Keys that are not numbers stand in no order with anything, so the order of a
sorted list depends on which keys are compared.  It is fixed like this: the run
at the front that ascends, or descends strictly, is taken as it is or reversed,
and every other pair is put in its place by halving. -/

/-- The pairs up to the first one that `goesOn` does not accept after the one before it, and the
rest. -/
def splitRun {α : Type} (goesOn : Scalar → Scalar → Option Bool) (last : Scalar) :
    List (Scalar × α) → Option (List (Scalar × α) × List (Scalar × α))
  | [] => some ([], [])
  | (key, x) :: rest => do
    if ← goesOn last key then
      let (run, rest) ← splitRun goesOn key rest
      return ((key, x) :: run, rest)
    else return ([], (key, x) :: rest)

/-- The run at the front, in ascending order, and the rest. -/
def firstRun {α : Type} :
    List (Scalar × α) → Option (List (Scalar × α) × List (Scalar × α))
  | (k, x) :: (l, y) :: rest => do
    if ← l.lt? k then
      let (run, rest) ← splitRun (fun a b => b.lt? a) l rest
      return (((k, x) :: (l, y) :: run).reverse, rest)
    else
      let (run, rest) ← splitRun (fun a b => (b.lt? a).map not) l rest
      return ((k, x) :: (l, y) :: run, rest)
  | pairs => some (pairs, [])

/-- Puts one pair into a sorted list, behind its equals, by comparing it with the middle first. -/
def insertByKey {α : Type} (key : Scalar) (x : α) (sorted : List (Scalar × α)) :
    Option (List (Scalar × α)) :=
  match _h : sorted.drop (sorted.length / 2) with
  | [] => some [(key, x)]
  | (k, y) :: above => do
    let below := sorted.take (sorted.length / 2)
    if ← key.lt? k then return (← insertByKey key x below) ++ (k, y) :: above
    else return below ++ (k, y) :: (← insertByKey key x above)
termination_by sorted.length
decreasing_by
  all_goals
    have := congrArg List.length _h
    simp only [List.length_drop, List.length_cons] at this
  · simp only [List.length_take]
    omega
  · omega

/-- The pairs in ascending order of keys; `none` if two of the keys have no order. -/
def sortByKey {α : Type} (pairs : List (Scalar × α)) : Option (List (Scalar × α)) := do
  let (run, rest) ← firstRun pairs
  rest.foldlM (fun sorted (key, x) => insertByKey key x sorted) run

/-! ### Texts -/

/-- How messages write numbers. -/
def messageLayout : NumberLayout := {}

/-- A set as messages show it. -/
def setLiteral : List String → String
  | [] => "set()"
  | members => "\x7b" ++ ", ".intercalate members ++ "\x7d"

/-- A scalar as messages show it inside other values. -/
def literal : Scalar → String
  | null => "None"
  | bool b => if b then "True" else "False"
  | int n => toString n
  | float x => messageLayout.write x
  | str s => Text.quoted s
  | bytes bs => Text.quotedBytes bs
  | date d => d.literal
  | moment t => t.literal
  | set members _ => setLiteral members
  | enclosing isMapping => if isMapping then "\x7b...\x7d" else "[...]"

/-- A scalar as a name: texts as they are, dates in ISO form, the rest as in messages. -/
def name : Scalar → String
  | str s => s
  | date d => d.iso
  | moment t => t.iso " "
  | a => a.literal

/-- Neither null, false, zero nor empty. -/
def isTruthy : Scalar → Bool
  | null => false
  | bool b => b
  | int n => n != 0
  | float x => x.isNonzero
  | str s => !s.isEmpty
  | bytes bs => !bs.isEmpty
  | date _ => true
  | moment _ => true
  | set members _ => !members.isEmpty
  | enclosing _ => true

/-- The scalar can be written as a text: no integer in it has too many digits. -/
def isWritable : Scalar → Bool
  | int n => Numeral.isWritable n
  | set _ writable => writable
  | _ => true

end Scalar

end ApiSchema
