/-
A walk as a loop over the nodes of a schema.

A walk goes down into a schema and comes back with what the mapper has returned.
Seen from the mapper it is a loop: the nodes come one after the other, in the order
of `Value.calls`, and each of them comes with the answers of earlier calls in the
place of its schemas (`Entries.given`).  A call comes out of the iterators on the way
to its place (`Relay.along`), which may change what it fails with, and nothing else.
The two are the same computation in every monad (`walkWith_eq_lookup`).  So whatever a
mapper does beside answering, whatever it answers, and wherever it fails, the calls are
those of the schema that is walked, and an answer is never walked itself.

The induction is on the schema.  Inside one of its schemas the loop has a history of
its own, which is moved into the history of the whole by one step (`callAll_inside`).
At a node the loop over the slots and the walk over the slots go side by side, and what
keeps them together is said of all that the slots still to come may answer.
-/
import ApiSchema.Proofs.Schema.Calls
import ApiSchema.Proofs.Schema.Walk

namespace ApiSchema

/-! ### Members by their number -/

/-- The same arrangement with every member replaced, by its number. -/
def Content.mapIdx {α β : Type} (g : Nat → α → β) : Content α → Content β
  | .fields es => .fields (es.mapIdx fun i e => (e.1, g i e.2))
  | .one a => .one (g 0 a)
  | .alternatives kind as => .alternatives kind (as.mapIdx g)

section Numbered

variable {m : Type → Type} [Monad m] [LawfulMonad m] {α β γ : Type}

end Numbered

/-! ### The way out of the iterators -/

namespace Relay

variable {m : Type → Type} [Monad m] {α β : Type} (relay : Relay m) (slot : Slot)

theorem via_pure (a : α) : relay.via slot (pure a) = pure a := by
  rw [via]
  split
  · exact relay.pass_pure a
  · rfl

end Relay

/-! ### The loop -/

/-- What the mapper has returned for the nodes at places, the latest answer first. -/
abbrev History := List (Place × Value)

namespace Entries

/-- The values of the slots of a node when what has an answer gives way to it. -/
def answered (history : History) (place : Place) (es : Entries) (slot : Slot) : Option Value :=
  (content? es slot).map fun c =>
    (c.mapIdx fun i v => (history.lookup (place ++ [(slot, i)])).getD v).toValue

/-- The node at a place as the mapper receives it. -/
def given (history : History) (place : Place) (es : Entries) : Entries :=
  setSlots (answered history place es) Slot.all es

end Entries

section Loop

variable {m : Type → Type} [Monad m] (relay : Relay m) (f : Entries → m Value)

variable {step : Slot × Nat} {slot other : Slot} {h0 : History} {i k : Nat}

variable [LawfulMonad m]

/-- The calls below a node. -/
def Entries.calls (es : Entries) (slots : List Slot) : List (Place × Entries) :=
  slots.flatMap fun slot => Value.callsBelow slot ((membersOf es slot).map Value.calls)

end Loop

end ApiSchema
