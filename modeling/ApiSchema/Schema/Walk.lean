/-
Walking a schema.

A walk rebuilds a schema from the leaves up: the subschemas of a node come
first, slot by slot, and then the mapper is given the node with its subschemas
replaced by what the mapper returned for them.  What the mapper returns is not
walked again.  The mapper may have effects and may fail; the walk runs in the
mapper's monad and adds no effect of its own.

Alternatives in an array are walked by an iterator, and a failure may not come
out of an iterator as it went in: the signal that an iteration has ended gives
way to another failure.  `Relay` says what becomes of a computation on that way.
The mappers of the library send no signal, so their walks, `walkM`, go by the
plain relay, which changes nothing.

A node may write its keywords in any order while the slots are visited in a
fixed one.  So the recursion, which follows the entries as they are written, only
prepares one action per slot, and `rebuild` runs the actions in the order of
visiting.  Both are plain recursions on the value; `walkWith_mapping` and
`walkSubschemasWith_eq` are the equations that later proofs use.
-/
import ApiSchema.Schema.Shape

namespace ApiSchema

variable {m : Type → Type} [Monad m]

/-- What an iterator makes of the computations of its items.  It leaves answers as they are, and it
makes the same of a computation in steps as of each of the steps. -/
structure Relay (m : Type → Type) [Monad m] where
  /-- The computation of an item as it comes out of the iterator. -/
  pass : {α : Type} → m α → m α
  pass_pure : ∀ {α : Type} (a : α), pass (pure a) = pure a
  pass_bind : ∀ {α β : Type} (x : m α) (f : α → m β),
    pass (x >>= f) = pass x >>= fun a => pass (f a)

namespace Relay

/-- The iterator that changes nothing. -/
def plain : Relay m where
  pass x := x
  pass_pure _ := rfl
  pass_bind _ _ := rfl

/-- What becomes of the computation of a member of a slot.  Only alternatives are iterated over. -/
def via {α : Type} (relay : Relay m) (slot : Slot) (x : m α) : m α :=
  if slot.isCombinator then relay.pass x else x

theorem via_plain {α : Type} (slot : Slot) (x : m α) : (plain : Relay m).via slot x = x :=
  ite_self _

end Relay

/-- Runs the actions prepared for the slots of a node, in the order of visiting, and puts their
results in the place of the slots' values.  A slot whose value holds no schemas has no action. -/
def rebuild (actions : List (Slot × Option (m Value))) (es : Entries) : m Entries :=
  Slot.all.foldlM
    (fun acc slot => match (actions.lookup slot).join with
      | some action => do return Entries.set acc slot.keyword (← action)
      | none => pure acc)
    es

namespace Value

mutual

/-- Rebuilds a schema, giving every node to the mapper after its subschemas.  A value that is not a
mapping is returned as it is. -/
def walkWith (relay : Relay m) (f : Entries → m Value) : Value → m Value
  | .mapping es => do f (← rebuild (slotActions relay f es) es)
  | .array kind items => pure (.array kind items)
  | .scalar s => pure (.scalar s)

/-- The action that rebuilds the value of a slot, if that value holds schemas. -/
def slotAction? (relay : Relay m) (f : Entries → m Value) (slot : Slot) :
    Value → Option (m Value)
  | .mapping es => match slot with
    | .properties => some do return .mapping (← walkFields relay f es)
    | .items | .additionalProperties => some do f (← rebuild (slotActions relay f es) es)
    | .oneOf | .anyOf | .allOf => none
  | .array kind items => match slot with
    | .oneOf | .anyOf | .allOf => some do return .array kind (← walkItems relay f items)
    | .properties | .items | .additionalProperties => none
  | .scalar _ => none

/-- The actions for the slots of a node, in the order of its entries. -/
def slotActions (relay : Relay m) (f : Entries → m Value) :
    List (Scalar × Value) → List (Slot × Option (m Value))
  | [] => []
  | (k, v) :: rest => match Slot.ofKey? k with
    | none => slotActions relay f rest
    | some slot => (slot, slotAction? relay f slot v) :: slotActions relay f rest

/-- Walks the values of a mapping, in order. -/
def walkFields (relay : Relay m) (f : Entries → m Value) :
    List (Scalar × Value) → m (List (Scalar × Value))
  | [] => pure []
  | (k, v) :: rest => do
    let w ← walkWith relay f v
    let ws ← walkFields relay f rest
    return (k, w) :: ws

/-- Walks items, in order, as they come out of an iterator. -/
def walkItems (relay : Relay m) (f : Entries → m Value) : List Value → m (List Value)
  | [] => pure []
  | v :: vs => do
    let w ← relay.pass (walkWith relay f v)
    let ws ← walkItems relay f vs
    return w :: ws

end

/-- Replaces the subschemas of a node by what a walk makes of them.  The node itself stays. -/
def walkSubschemasWith (relay : Relay m) (f : Entries → m Value) (es : Entries) : m Entries :=
  rebuild (slotActions relay f es) es

/-- Rebuilds a schema by a mapper that sends no signal. -/
def walkM (f : Entries → m Value) (v : Value) : m Value := walkWith .plain f v

/-- Replaces the subschemas of a node by a mapper that sends no signal. -/
def walkSubschemas (f : Entries → m Value) (es : Entries) : m Entries :=
  walkSubschemasWith .plain f es

variable (relay : Relay m) (f : Entries → m Value)

theorem walkWith_mapping (es : Entries) :
    walkWith relay f (.mapping es) = (do f (← walkSubschemasWith relay f es)) := rfl

theorem walkM_mapping (es : Entries) :
    walkM f (.mapping es) = (do f (← walkSubschemas f es)) := rfl

theorem lookup_slotActions (es : Entries) (slot : Slot) :
    (slotActions relay f es).lookup slot =
      (Entries.get? es slot.keyword).map (slotAction? relay f slot) := by
  induction es with
  | nil => simp [slotActions]
  | cons e rest ih =>
    obtain ⟨k, v⟩ := e
    by_cases hk : k = .str slot.keyword
    · subst hk
      simp [slotActions, Slot.ofKey?_keyword, Entries.get?]
    · simp only [slotActions, Entries.get?_cons, if_neg hk, ← ih]
      split
      · rfl
      · next other h =>
        have : (slot == other) = false := by
          simp only [beq_eq_false_iff_ne, ne_eq]
          rintro rfl
          exact hk (Slot.eq_str_of_ofKey? h)
        simp [List.lookup_cons, this]

/-- The subschemas of a node are walked slot by slot, each slot looked up under its keyword. -/
theorem walkSubschemasWith_eq (es : Entries) :
    walkSubschemasWith relay f es = Slot.all.foldlM
      (fun acc slot => match (Entries.get? es slot.keyword).bind (slotAction? relay f slot) with
        | some action => do return Entries.set acc slot.keyword (← action)
        | none => pure acc)
      es := by
  have (slot : Slot) : ((slotActions relay f es).lookup slot).join =
      (Entries.get? es slot.keyword).bind (slotAction? relay f slot) := by
    rw [lookup_slotActions]
    cases Entries.get? es slot.keyword <;> rfl
  simp only [walkSubschemasWith, rebuild, this]

end Value

end ApiSchema
