/-
Document values.

A document is a tree of scalars, arrays and mappings.  Mappings keep the order in
which their keys were written, because it is the order in which schemas are
visited, listed and printed; overwriting a key keeps its place.  There are two
kinds of array, and whatever rebuilds an array keeps its kind.
-/
import ApiSchema.Scalar

namespace ApiSchema

/-- The two kinds of array. -/
inductive ArrayKind where
  /-- The ordinary kind. -/
  | list
  /-- The fixed kind, shown in round brackets. -/
  | tuple
deriving DecidableEq, Repr

/-- A document value.  The keys of a mapping are distinct as `Scalar.same` tells keys apart. -/
inductive Value where
  /-- A value without parts. -/
  | scalar (s : Scalar)
  /-- An array. -/
  | array (kind : ArrayKind) (items : List Value)
  /-- A mapping, as its entries in order. -/
  | mapping (entries : List (Scalar × Value))

/-- The entries of a mapping, in order. -/
abbrev Entries := List (Scalar × Value)

namespace Value

instance : Inhabited Value := ⟨.scalar .null⟩

/-- The absent value. -/
abbrev null : Value := .scalar .null

/-- A text. -/
abbrev str (s : String) : Value := .scalar (.str s)

/-- A truth value. -/
abbrev bool (b : Bool) : Value := .scalar (.bool b)

/-- The entries of a mapping. -/
def entries? : Value → Option Entries
  | mapping es => some es
  | _ => none

/-- The text of a value that is one. -/
def text? : Value → Option String
  | scalar (.str s) => some s
  | _ => none

/-- The value is a mapping. -/
def isMapping : Value → Bool
  | mapping _ => true
  | _ => false

@[simp] theorem entries?_eq_some_iff {v : Value} {es : Entries} :
    v.entries? = some es ↔ v = mapping es := by
  cases v <;> simp [entries?, eq_comm]

/-- Neither null, false, zero nor empty. -/
def isTruthy : Value → Bool
  | scalar s => s.isTruthy
  | array _ items => !items.isEmpty
  | mapping es => !es.isEmpty

/-! ### Equality -/

mutual

/-- Structural equality, by recursion on the tree. -/
def beq : Value → Value → Bool
  | scalar s, scalar t => s = t
  | array k vs, array l ws => k = l && beqItems vs ws
  | mapping es, mapping fs => beqEntries es fs
  | _, _ => false

/-- Structural equality of items. -/
def beqItems : List Value → List Value → Bool
  | [], [] => true
  | v :: vs, w :: ws => beq v w && beqItems vs ws
  | _, _ => false

/-- Structural equality of entries, keys included. -/
def beqEntries : List (Scalar × Value) → List (Scalar × Value) → Bool
  | [], [] => true
  | (k, v) :: es, (l, w) :: fs => k = l && (beq v w && beqEntries es fs)
  | _, _ => false

end

mutual

theorem eq_of_beq : ∀ {v w : Value}, beq v w = true → v = w
  | scalar s, scalar t, h => by simp [beq] at h; rw [h]
  | array k vs, array l ws, h => by
    simp [beq] at h; rw [h.1, eq_of_beqItems h.2]
  | mapping es, mapping fs, h => by
    simp [beq] at h; rw [eq_of_beqEntries h]
  | scalar _, array _ _, h | scalar _, mapping _, h | array _ _, scalar _, h
  | array _ _, mapping _, h | mapping _, scalar _, h | mapping _, array _ _, h => by simp [beq] at h

theorem eq_of_beqItems : ∀ {vs ws : List Value}, beqItems vs ws = true → vs = ws
  | [], [], _ => rfl
  | v :: vs, w :: ws, h => by
    simp [beqItems] at h; rw [eq_of_beq h.1, eq_of_beqItems h.2]
  | [], _ :: _, h | _ :: _, [], h => by simp [beqItems] at h

theorem eq_of_beqEntries : ∀ {es fs : List (Scalar × Value)}, beqEntries es fs = true → es = fs
  | [], [], _ => rfl
  | (k, v) :: es, (l, w) :: fs, h => by
    simp [beqEntries] at h; rw [h.1, eq_of_beq h.2.1, eq_of_beqEntries h.2.2]
  | [], _ :: _, h | _ :: _, [], h => by simp [beqEntries] at h

end

mutual

theorem beq_self : ∀ v : Value, beq v v = true
  | scalar s => by simp [beq]
  | array k vs => by simp [beq, beqItems_self vs]
  | mapping es => by simp [beq, beqEntries_self es]

theorem beqItems_self : ∀ vs : List Value, beqItems vs vs = true
  | [] => rfl
  | v :: vs => by simp [beqItems, beq_self v, beqItems_self vs]

theorem beqEntries_self : ∀ es : List (Scalar × Value), beqEntries es es = true
  | [] => rfl
  | (k, v) :: es => by simp [beqEntries, beq_self v, beqEntries_self es]

end

instance : DecidableEq Value := fun v w =>
  if h : beq v w = true then isTrue (eq_of_beq h)
  else isFalse fun e => h (e ▸ beq_self v)

end Value

end ApiSchema
