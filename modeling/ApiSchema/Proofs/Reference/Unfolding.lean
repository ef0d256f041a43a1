/-
What inlining returns.

A value unfolds node by node.  A reference unfolds to the whole answer for its
target, and this answer is the one of a run of its own: nothing in the rule says
where the reference stands or which references are being expanded around it.  So
the chain decides whether there is an answer and never which one it is.

The chain differs at every occurrence of a reference.  What makes the answers
equal all the same is that a derivation under a chain is one under the empty
chain, and that a run has the budget for every derivation there is.
-/
import ApiSchema.Proofs.Reference.Expansion

namespace ApiSchema

open Entries (subschemas)

/-- The second value is the first one with every reference replaced by the answer for its target. -/
inductive Unfolding (document : Value) (areas : List String) : Value → Value → Prop
  /-- A value that is not a mapping stays itself. -/
  | atom {v : Value} (h : v.isMapping = false) : Unfolding document areas v v
  /-- A reference becomes what inlining its target on its own returns. -/
  | reference {es : Entries} {ref : String} {t w : Value} (href : Entries.ref? es = some ref)
      (target : resolve document areas (.reference ref) = .ok t)
      (answer : (inline document areas t).result = .ok w) :
      Unfolding document areas (.mapping es) w
  /-- Any other node keeps all but its schemas, and these unfold. -/
  | node {es es' : Entries} (g : Value → Value) (href : Entries.ref? es = none)
      (below : ∀ c ∈ subschemas es, Unfolding document areas c (g c))
      (keeps : Entries.Replaces g es es') : Unfolding document areas (.mapping es) (.mapping es')

variable {document v w : Value} {areas chain : List String} {budget : Nat}

theorem Inlines.unfolding (h : Inlines document areas chain v w) :
    Unfolding document areas v w := by
  induction h with
  | atom hv => exact .atom hv
  | node g href _ ih => exact .node g href ih (Entries.replaces_mapSchemas g _)
  | reference g href _ _ _ target expanded _ _ =>
    have answer := inline_eq_ok_iff.mpr (expanded.shorten (List.nil_subset _))
    exact .reference href target answer

/-- **A run that succeeds returns the unfolding of its value, which is also what
the value gives on its own**, whatever is being expanded around it. -/
theorem unfolding_of_inlineWithin
    (h : (inlineWithin document areas budget chain v).result = .ok w) :
    Unfolding document areas v w ∧ (inline document areas v).result = .ok w := by
  have hinlines := inlines_of_inlineWithin h
  refine ⟨hinlines.unfolding, ?_⟩
  exact inline_eq_ok_iff.mpr (hinlines.shorten (List.nil_subset _))

/-- Inside the pair the leaf is what it is on its own. -/
theorem unfolding_sharing :
    (inlineWithin Sharing.root defaultAreas 2 ["#/components/schemas/pair"]
        Sharing.leafReference).result = .ok Sharing.leaf ∧
      (inline Sharing.root defaultAreas Sharing.leafReference).result = .ok Sharing.leaf := by
  have hrun : (inlineWithin Sharing.root defaultAreas 2 ["#/components/schemas/pair"]
      Sharing.leafReference).result = .ok Sharing.leaf := rfl
  exact ⟨hrun, (unfolding_of_inlineWithin hrun).2⟩

end ApiSchema
