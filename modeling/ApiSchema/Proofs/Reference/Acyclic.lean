/-
Which schemas can be inlined.

The run only knows the chain of references that it is expanding.  Whether it
succeeds is a matter of the graph: every reference that can be reached has to
resolve, and none may lead back to itself.

Both directions look at the chain as a path of the graph.  If the run succeeds,
a path is followed through the derivation, where every reference on it is put on
the chain and is never met again; so a cycle cannot be followed.  If it fails, the
invariant is that the references of the chain lead to those of the value at hand,
so a reference that is already on the chain is on a cycle.  The chain forgets a
reference as soon as its target is done, which is why a target used twice is no
cycle.
-/
import ApiSchema.Proofs.Reference.Expansion
import ApiSchema.Proofs.TextKeys

namespace ApiSchema

open Relation (TransGen ReflTransGen)

/-- What the graph has to look like for a schema to be inlined. -/
structure Expandable (document : Value) (areas : List String) (v : Value) : Prop where
  /-- Every reference that can be reached names a place of the document. -/
  resolves : ∀ ref, Reachable document areas v ref →
    ∃ t, resolve document areas (.reference ref) = .ok t
  /-- No reference that can be reached leads back to itself. -/
  acyclic : ∀ ref, Reachable document areas v ref → ¬ TransGen (LeadsTo document areas) ref ref

variable {document v w t : Value} {areas chain texts : List String} {ref first : String}
  {budget : Nat}

/-! ### A path through a derivation -/

/-- The target of every reference of the value is expanded somewhere in the derivation. -/
theorem Inlines.expands (h : Inlines document areas chain v w) (href : ref ∈ v.references) :
    ref ∉ chain ∧ ∃ t u, resolve document areas (.reference ref) = .ok t ∧
      Inlines document areas (chain ++ [ref]) t u := by
  induction h with
  | atom hv => simp [Value.references_atom hv] at href
  | node g hnone _ ih =>
    rcases Value.mem_references_mapping.mp href with ⟨c, hc, hbelow⟩ | hhere
    · exact ih c hc hbelow
    · simp [hnone] at hhere
  | @reference chain es other t u g hother _ fresh _ target expanded ih _ =>
    rcases Value.mem_references_mapping.mp href with ⟨c, hc, hbelow⟩ | hhere
    · exact ih c hc hbelow
    · obtain rfl : other = ref := Option.some.inj (hother.symm.trans hhere)
      exact ⟨fresh, t, u, target, expanded⟩

/-- **A path of the graph goes through the derivation**, and the chain grows along it. -/
theorem Inlines.expands_of_path (h : Inlines document areas chain v w)
    (hfirst : first ∈ v.references) (hpath : ReflTransGen (LeadsTo document areas) first ref) :
    ref ∉ chain ∧ ∃ longer t u, ref ∈ longer ∧ chain ⊆ longer ∧
      resolve document areas (.reference ref) = .ok t ∧ Inlines document areas longer t u := by
  induction hpath with
  | refl =>
    obtain ⟨hfresh, t, u, ht, hu⟩ := h.expands hfirst
    exact ⟨hfresh, chain ++ [first], t, u, by simp, List.subset_append_left _ _, ht, hu⟩
  | @tail last ref _ hstep ih =>
    obtain ⟨-, longer, s, u, -, hsub, hs, hu⟩ := ih
    obtain ⟨s', hs', hmem⟩ := hstep
    obtain rfl : s = s' := Except.ok.inj (hs.symm.trans hs')
    obtain ⟨hfresh, t, x, ht, hx⟩ := hu.expands hmem
    refine ⟨fun hchain => hfresh (hsub hchain), longer ++ [ref], t, x, by simp, ?_, ht, hx⟩
    exact List.Subset.trans hsub (List.subset_append_left _ _)

/-- What can be inlined is expandable. -/
theorem Inlines.expandable (h : Inlines document areas [] v w) : Expandable document areas v where
  resolves := by
    rintro ref ⟨first, hfirst, hpath⟩
    obtain ⟨-, -, t, -, -, -, ht, -⟩ := h.expands_of_path hfirst hpath
    exact ⟨t, ht⟩
  acyclic := by
    rintro ref ⟨first, hfirst, hpath⟩ hcycle
    obtain ⟨-, longer, t, u, hmem, -, ht, hu⟩ := h.expands_of_path hfirst hpath
    -- Going round the cycle meets the reference again, while it is on the chain.
    obtain ⟨second, ⟨t', ht', hsecond⟩, hback⟩ := TransGen.head'_iff.mp hcycle
    obtain rfl : t = t' := Except.ok.inj (ht.symm.trans ht')
    exact (hu.expands_of_path hsecond hback).1 hmem

/-! ### What a failure says about the graph -/

/-- The error is the fault of the graph, at a reference that can be reached. -/
inductive Blocked (document : Value) (areas : List String) (v : Value) : ReferenceError → Prop
  /-- The reference does not resolve. -/
  | unresolved {ref : String} {cause : ReferenceError} (reached : Reachable document areas v ref)
      (failed : resolve document areas (.reference ref) = .error cause) :
      Blocked document areas v cause
  /-- The reference leads back to itself. -/
  | circular {ref : String} {path : List String} (reached : Reachable document areas v ref)
      (cycle : TransGen (LeadsTo document areas) ref ref) :
      Blocked document areas v (.circular path)

/-- The references of the chain lead to those of the value. -/
def LeadsInto (document : Value) (areas chain : List String) (v : Value) : Prop :=
  ∀ outer ∈ chain, ∀ ref ∈ v.references, TransGen (LeadsTo document areas) outer ref

theorem LeadsInto.target (h : LeadsInto document areas chain v) (href : ref ∈ v.references)
    (ht : resolve document areas (.reference ref) = .ok t) :
    LeadsInto document areas (chain ++ [ref]) t := by
  intro outer houter next hnext
  have hstep : LeadsTo document areas ref next := ⟨t, ht, hnext⟩
  rcases List.mem_append.mp houter with hchain | hlast
  · exact (h outer hchain ref href).tail hstep
  · rw [List.mem_singleton.mp hlast]
    exact .single hstep

theorem Blocked.of_target {cause : ReferenceError} (href : ref ∈ v.references)
    (ht : resolve document areas (.reference ref) = .ok t) (h : Blocked document areas t cause) :
    Blocked document areas v cause := by
  cases h with
  | unresolved reached failed =>
    exact .unresolved ((Reachable.of_mem href).of_target ht reached) failed
  | circular reached cycle =>
    exact .circular ((Reachable.of_mem href).of_target ht reached) cycle

/-- **A run with budget to spare fails only for a reason in the graph.** -/
theorem blocked_of_inlineWithin {failure : Failure ReferenceError}
    (h : (inlineWithin document areas budget chain v).result = .error failure)
    (hchain : LeadsInto document areas chain v)
    (hdocument : document.textKeys = true) (hv : v.textKeys = true)
    (hvtexts : v.refTexts ⊆ texts) (htexts : document.refTexts ⊆ texts)
    (hbudget : spare texts chain < budget) :
    ∃ cause, failure = .error cause ∧ Blocked document areas v cause := by
  induction budget generalizing chain v with
  | zero => omega
  | succ budget ih =>
    rw [inlineWithin_succ] at h
    obtain ⟨node, hnode, hfails⟩ := exists_nodeFails h
    have hmem {ref : String} (href : Entries.ref? node = some ref) : ref ∈ v.references :=
      List.mem_filterMap.mpr ⟨node, hnode, href⟩
    cases hfails with
    | circular href hseen hfailure =>
      exact ⟨_, hfailure, .circular (.of_mem (hmem href)) (hchain _ hseen _ (hmem href))⟩
    | @unsorted ref _ hsiblings =>
      rw [noteSiblings_of_textKeys ref (Value.hereditary_textKeys.node hv hnode)] at hsiblings
      simp at hsiblings
    | unresolved href hresolve hfailure =>
      exact ⟨_, hfailure, .unresolved (.of_mem (hmem href)) hresolve⟩
    | target href fresh ht hinner =>
      have hspare := spare_append_lt (hvtexts (Value.references_subset_refTexts v (hmem href))) fresh
      obtain ⟨cause, hcause, hblocked⟩ := ih hinner (hchain.target (hmem href) ht)
        (Value.hereditary_textKeys.resolve hdocument ht)
        ((Value.hereditary_refTexts texts).resolve htexts ht) (by omega)
      exact ⟨cause, hcause, hblocked.of_target (hmem href) ht⟩

theorem kind_of_localPointer_error {text : String} {cause : ReferenceError}
    (h : localPointer text = .error cause) : cause.kind = .unsupportedTarget := by
  rw [localPointer] at h
  split at h
  · simp at h
  · rw [← Except.error.inj h]
    rfl

/-- A reference that does not resolve is one that no reference may name, or leads nowhere. -/
theorem kind_of_resolve_error {cause : ReferenceError}
    (h : resolve document areas (.reference ref) = .error cause) :
    cause.kind = .unresolvedPath ∨ cause.kind = .unsupportedTarget := by
  rw [resolve_reference, resolveText] at h
  rcases bind_eq_error.mp h with hpointer | ⟨pointer, -, hfollow⟩
  · right
    rw [supportedPointer] at hpointer
    rcases bind_eq_error.mp hpointer with hlocal | ⟨p, -, hareas⟩
    · exact kind_of_localPointer_error hlocal
    rcases bind_eq_error.mp hareas with harea | ⟨supported, -, hbelow⟩
    · obtain ⟨area, -, hlocal⟩ := exists_error_of_mapM harea
      exact kind_of_localPointer_error hlocal
    · split at hbelow
      · simp [pure, Except.pure] at hbelow
      · rw [← Except.error.inj hbelow]
        rfl
  · left
    split at hfollow
    · simp [pure, Except.pure] at hfollow
    · rw [← Except.error.inj hfollow]
      rfl

/-- A cycle is reported only if there is one, and nothing is reported as no reference. -/
theorem Blocked.kind {cause : ReferenceError} (h : Blocked document areas v cause) :
    cause.kind = .unresolvedPath ∨ cause.kind = .unsupportedTarget ∨
      cause.kind = .circular ∧
        ∃ ref, Reachable document areas v ref ∧ TransGen (LeadsTo document areas) ref ref := by
  cases h with
  | unresolved _ failed =>
    rcases kind_of_resolve_error failed with hkind | hkind
    · exact .inl hkind
    · exact .inr (.inl hkind)
  | circular reached cycle => exact .inr (.inr ⟨rfl, _, reached, cycle⟩)

/-- Nothing that is expandable is blocked. -/
theorem Expandable.not_blocked {cause : ReferenceError} (h : Expandable document areas v) :
    ¬ Blocked document areas v cause := by
  intro hblocked
  cases hblocked with
  | unresolved reached failed =>
    obtain ⟨t, ht⟩ := h.resolves _ reached
    rw [failed] at ht
    cases ht
  | circular reached cycle => exact h.acyclic _ reached cycle

/-- Where keys can be sorted, inlining has an answer unless the graph forbids it. -/
theorem blocked_of_inline {failure : Failure ReferenceError}
    (hdocument : document.textKeys = true) (hv : v.textKeys = true)
    (h : (inline document areas v).result = .error failure) :
    ∃ cause, failure = .error cause ∧ Blocked document areas v cause := by
  refine blocked_of_inlineWithin h ?_ hdocument hv (List.subset_append_left _ _)
    (List.subset_append_right _ _) (spare_lt_inlineBudget document v)
  intro outer houter
  cases houter

/-- **A schema is inlined exactly if every reference that it reaches resolves and
none of them leads back to itself.**  A failure names one of the two reasons, and
a cycle is reported only where the graph has one. -/
theorem inline_succeeds_iff_expandable (document : Value) (areas : List String) (v : Value)
    (hdocument : document.textKeys = true) (hv : v.textKeys = true) :
    ((∃ w, (inline document areas v).result = .ok w) ↔ Expandable document areas v) ∧
    ∀ failure, (inline document areas v).result = .error failure →
      ∃ cause, failure = .error cause ∧
        (cause.kind = .unresolvedPath ∨ cause.kind = .unsupportedTarget ∨
          cause.kind = .circular ∧
            ∃ ref, Reachable document areas v ref ∧ TransGen (LeadsTo document areas) ref ref) := by
  refine ⟨⟨?_, ?_⟩, ?_⟩
  · rintro ⟨w, hw⟩
    exact (inline_eq_ok_iff.mp hw).expandable
  · intro hexpandable
    cases hresult : (inline document areas v).result with
    | ok w => exact ⟨w, rfl⟩
    | error failure =>
      obtain ⟨cause, -, hblocked⟩ := blocked_of_inline hdocument hv hresult
      exact absurd hblocked hexpandable.not_blocked
  · intro failure hfailure
    obtain ⟨cause, hcause, hblocked⟩ := blocked_of_inline hdocument hv hfailure
    exact ⟨cause, hcause, hblocked.kind⟩

/-- A leaf that is shared is no cycle: the run goes through, so the graph has none. -/
theorem expandable_sharing :
    Sharing.root.textKeys = true ∧
      Expandable Sharing.root defaultAreas (.reference "#/components/schemas/pair") := by
  have hkeys : Sharing.root.textKeys = true := by decide
  refine ⟨hkeys, ?_⟩
  have hiff := (inline_succeeds_iff_expandable Sharing.root defaultAreas
    (.reference "#/components/schemas/pair") hkeys (by decide)).1
  exact hiff.mp ⟨.mapping (Sharing.pair Sharing.leaf), rfl⟩

end ApiSchema
