/-
Replacing references, as rules.

`inlineWithin` carries a budget beside the chain of open expansions.  The budget
is there so that the recursion is plain, and it says nothing about schemas.
`Inlines` is the same replacement by rules that mention the chain alone, so that
an induction on a derivation is an induction over the expansion, where a target
comes right under the reference that it replaces.

A run gives a derivation at once.  The other direction is the resource argument:
each expansion puts one more text on the chain, all texts stand in the schema or
the document, and none is put there twice, so the texts not yet on the chain
bound the depth.  `inlineWithin_of_inlines` needs a budget above their number,
and `inlineBudget` is one.  Chains only ever forbid: a derivation under a chain is
one under any part of it.

A run that gives no derivation fails at a node, and `NodeFails` lists the ways in which
a node can fail.  One of them is that its target fails, where an induction goes on.
-/
import ApiSchema.Proofs.Reference.Graph
import ApiSchema.Proofs.Schema.Walk
import Mathlib.Data.Finset.Card
import Mathlib.Data.Finset.Dedup
import Mathlib.Data.Finset.SDiff

namespace ApiSchema

open Entries (subschemas mapSchemas)

variable (document : Value) (areas : List String)

/-! ### One node of a run -/

/-- What is made of a node whose schemas are replaced already, if `run` inlines targets. -/
def expandNode (run : List String → Value → Traced (Failure ReferenceError) Value)
    (chain : List String) (es : Entries) : Traced (Failure ReferenceError) Value :=
  match Entries.ref? es with
  | none => return .mapping es
  | some ref =>
    if ref ∈ chain then .fail (.error (.circular (chain ++ [ref])))
    else do
      noteSiblings ref es
      let target ← resolveLogged document areas ref
      run (chain ++ [ref]) target

theorem inlineWithin_succ (budget : Nat) (chain : List String) (v : Value) :
    inlineWithin document areas (budget + 1) chain v =
      v.walkM (expandNode document areas (inlineWithin document areas budget) chain) := rfl

/-- What a run with a budget left makes of a node whose schemas are replaced already. -/
def replaceNode (budget : Nat) (chain : List String) (es : Entries) :
    Except (Failure ReferenceError) Value :=
  match Entries.ref? es with
  | none => .ok (.mapping es)
  | some ref =>
    if ref ∈ chain then .error (.error (.circular (chain ++ [ref])))
    else do
      (noteSiblings ref es).result
      let t ← (resolve document areas (.reference ref)).mapError .error
      (inlineWithin document areas budget (chain ++ [ref]) t).result

theorem result_inlineWithin_succ (budget : Nat) (chain : List String) (v : Value) :
    (inlineWithin document areas (budget + 1) chain v).result =
      v.walkM (replaceNode document areas budget chain) := by
  rw [inlineWithin, Traced.result_walkM]
  congr 1
  funext es
  rw [replaceNode]
  cases Entries.ref? es with
  | none => rfl
  | some ref =>
    by_cases hmem : ref ∈ chain
    · simp [hmem]
    · simp only [hmem, if_false, Traced.result_bind]
      congr 1
      funext u
      rw [result_resolveLogged]

/-- Only the keys of a node decide whether those beside a reference can be sorted. -/
theorem noteSiblings_congr {ref : String} {es es' : Entries}
    (h : Entries.keys es' = Entries.keys es) : noteSiblings ref es' = noteSiblings ref es := by
  have hlength : es'.length = es.length := by
    simpa [Entries.keys] using congrArg List.length h
  simp only [noteSiblings, siblingKeys, h, hlength]

/-- The keys beside a reference fail to be sorted in one way. -/
theorem siblingKeys_of_noteSiblings {ref : String} {es : Entries} {failure : Failure ReferenceError}
    (h : (noteSiblings ref es).result = .error failure) :
    siblingKeys es = .error .unorderedKeys ∧ failure = .fault .unorderedKeys := by
  have hfault {fault : Fault} (hkeys : siblingKeys es = .error fault) :
      fault = .unorderedKeys := by
    rw [siblingKeys] at hkeys
    split at hkeys
    · simp at hkeys
    · exact (Except.error.inj hkeys).symm
  rw [noteSiblings] at h
  split at h
  · simp at h
  · cases hkeys : siblingKeys es with
    | ok keys => simp [hkeys] at h
    | error fault =>
      rw [hkeys] at h
      obtain rfl := hfault hkeys
      exact ⟨rfl, (Except.error.inj h).symm⟩

/-! ### Nodes that fail -/

/-- How a node fails if `run` inlines targets. -/
inductive NodeFails (run : List String → Value → Traced (Failure ReferenceError) Value)
    (chain : List String) (es : Entries) (failure : Failure ReferenceError) : Prop
  /-- The reference is being expanded. -/
  | circular {ref : String} (href : Entries.ref? es = some ref) (hmem : ref ∈ chain)
      (hfailure : failure = .error (.circular (chain ++ [ref])))
  /-- The keys beside the reference cannot be sorted. -/
  | unsorted {ref : String} (href : Entries.ref? es = some ref)
      (fails : (noteSiblings ref es).result = .error failure)
  /-- The reference does not resolve. -/
  | unresolved {ref : String} {cause : ReferenceError} (href : Entries.ref? es = some ref)
      (fails : resolve document areas (.reference ref) = .error cause)
      (hfailure : failure = .error cause)
  /-- The target fails. -/
  | target {ref : String} {t : Value} (href : Entries.ref? es = some ref) (fresh : ref ∉ chain)
      (target : resolve document areas (.reference ref) = .ok t)
      (fails : (run (chain ++ [ref]) t).result = .error failure)

section Fails

variable {document areas} {run : List String → Value → Traced (Failure ReferenceError) Value}
  {chain : List String} {v : Value} {es : Entries} {g : Value → Value}
  {failure : Failure ReferenceError}

theorem nodeFails_of_expandNode
    (h : (expandNode document areas run chain (mapSchemas g es)).result = .error failure) :
    NodeFails document areas run chain es failure := by
  rw [expandNode, Entries.ref?_mapSchemas] at h
  cases href : Entries.ref? es with
  | none => simp [href] at h
  | some ref =>
    simp only [href] at h
    by_cases hmem : ref ∈ chain
    · rw [if_pos hmem] at h
      exact .circular href hmem (Except.error.inj h).symm
    rw [if_neg hmem, Traced.result_bind, noteSiblings_congr Entries.keys_mapSchemas] at h
    rcases bind_eq_error.mp h with hsiblings | ⟨_, -, hrest⟩
    · exact .unsorted href hsiblings
    rw [Traced.result_bind, result_resolveLogged] at hrest
    rcases bind_eq_error.mp hrest with hresolve | ⟨t, htarget, hinner⟩
    · obtain ⟨cause, hcause, hfailure⟩ := mapError_eq_error.mp hresolve
      exact .unresolved href hcause hfailure.symm
    · exact .target href hmem (mapError_eq_ok.mp htarget) hinner

/-- **A walk fails at a node of the value.** -/
theorem exists_nodeFails (h : (v.walkM (expandNode document areas run chain)).result =
    .error failure) : ∃ es ∈ v.nodes, NodeFails document areas run chain es failure := by
  rw [Traced.result_walkM] at h
  obtain ⟨es, hes, g, hfails⟩ := Value.exists_node_of_walkM_error h
  exact ⟨es, hes, nodeFails_of_expandNode hfails⟩

end Fails

/-! ### The rules -/

/-- The references of the value are replaced while those of the chain are being expanded. -/
inductive Inlines : List String → Value → Value → Prop
  /-- A value that is not a mapping stays. -/
  | atom {chain : List String} {v : Value} (h : v.isMapping = false) : Inlines chain v v
  /-- A node that is no reference keeps all but its schemas. -/
  | node {chain : List String} {es : Entries} (g : Value → Value)
      (href : Entries.ref? es = none)
      (below : ∀ c ∈ subschemas es, Inlines chain c (g c)) :
      Inlines chain (.mapping es) (.mapping (mapSchemas g es))
  /-- A reference that is not on the chain gives way to its target. -/
  | reference {chain : List String} {es : Entries} {ref : String} {t w : Value}
      (g : Value → Value) (href : Entries.ref? es = some ref)
      (below : ∀ c ∈ subschemas es, Inlines chain c (g c))
      (fresh : ref ∉ chain) (siblings : (noteSiblings ref es).result = .ok ())
      (target : resolve document areas (.reference ref) = .ok t)
      (expanded : Inlines (chain ++ [ref]) t w) : Inlines chain (.mapping es) w

variable {document areas} {chain shorter : List String} {v w t : Value} {es : Entries}
  {ref : String} {budget : Nat}

/-- **A derivation under a chain is one under any part of the chain.** -/
theorem Inlines.shorten (h : Inlines document areas chain v w) (hsub : shorter ⊆ chain) :
    Inlines document areas shorter v w := by
  induction h generalizing shorter with
  | atom hv => exact .atom hv
  | node g href _ ih => exact .node g href fun c hc => ih c hc hsub
  | reference g href _ fresh siblings target _ ih ihtarget =>
    refine .reference g href (fun c hc => ih c hc hsub) (fun hmem => fresh (hsub hmem)) siblings
      target (ihtarget ?_)
    exact List.append_subset.mpr
      ⟨List.Subset.trans hsub (List.subset_append_left _ _), List.subset_append_right _ _⟩

/-! ### From a run to a derivation -/

theorem inlines_of_inlineWithin
    (h : (inlineWithin document areas budget chain v).result = .ok w) :
    Inlines document areas chain v w := by
  induction budget generalizing chain v w with
  | zero => simp [inlineWithin] at h
  | succ budget ih =>
    rw [result_inlineWithin_succ] at h
    induction v using Value.schemaRec generalizing w with
    | atom v hv =>
      rw [Value.walkM_atom _ hv] at h
      obtain rfl := Except.ok.inj h
      exact .atom hv
    | node es ihbelow =>
      obtain ⟨g, hg, hnode⟩ := Value.walkM_mapping_eq_ok.mp h
      have below (c : Value) (hc : c ∈ subschemas es) := ihbelow c hc (hg c hc)
      rw [replaceNode, Entries.ref?_mapSchemas] at hnode
      cases href : Entries.ref? es with
      | none =>
        simp only [href, Except.ok.injEq] at hnode
        subst hnode
        exact .node g href below
      | some ref =>
        simp only [href] at hnode
        by_cases hmem : ref ∈ chain
        · simp [hmem] at hnode
        · rw [if_neg hmem] at hnode
          obtain ⟨⟨⟩, hsiblings, hrest⟩ := bind_eq_ok.mp hnode
          obtain ⟨t, htarget, hexpanded⟩ := bind_eq_ok.mp hrest
          rw [noteSiblings_congr Entries.keys_mapSchemas] at hsiblings
          exact .reference g href below hmem hsiblings (mapError_eq_ok.mp htarget) (ih hexpanded)

/-! ### From a derivation to a run -/

/-- How many of the texts are not on the chain. -/
def spare (texts chain : List String) : Nat := (texts.toFinset \ chain.toFinset).card

theorem spare_append_lt {texts : List String} (hmem : ref ∈ texts) (hfresh : ref ∉ chain) :
    spare texts (chain ++ [ref]) < spare texts chain := by
  refine Finset.card_lt_card (Finset.ssubset_iff_of_subset ?_ |>.mpr ⟨ref, ?_, ?_⟩)
  · intro x hx
    simp only [List.toFinset_append, Finset.mem_sdiff, Finset.mem_union, not_or] at hx ⊢
    exact ⟨hx.1, hx.2.1⟩
  · simp [hmem, hfresh]
  · simp

theorem spare_lt_inlineBudget (document v : Value) :
    spare (v.refTexts ++ document.refTexts) [] < inlineBudget document v := by
  have hset : (v.refTexts ++ document.refTexts).eraseDups.toFinset =
      (v.refTexts ++ document.refTexts).toFinset := by
    ext ref
    simp
  have hcard := List.toFinset_card_le (v.refTexts ++ document.refTexts).eraseDups
  rw [hset] at hcard
  rw [spare, List.toFinset_nil, Finset.sdiff_empty, inlineBudget]
  omega

/-- **A budget above the number of texts that are not on the chain is never used up.** -/
theorem inlineWithin_of_inlines {texts : List String} (h : Inlines document areas chain v w)
    (hv : v.refTexts ⊆ texts) (hdocument : document.refTexts ⊆ texts)
    (hbudget : spare texts chain < budget) :
    (inlineWithin document areas budget chain v).result = .ok w := by
  induction h generalizing budget with
  | @atom chain v hatom =>
    obtain ⟨budget, rfl⟩ : ∃ n, budget = n + 1 := ⟨budget - 1, by omega⟩
    rw [result_inlineWithin_succ, Value.walkM_atom _ hatom]
    rfl
  | @node chain es g href _ ih =>
    obtain ⟨budget, rfl⟩ : ∃ n, budget = n + 1 := ⟨budget - 1, by omega⟩
    rw [result_inlineWithin_succ]
    refine Value.walkM_mapping_eq_ok.mpr ⟨g, fun c hc => ?_, ?_⟩
    · rw [← result_inlineWithin_succ]
      exact ih c hc ((Value.hereditary_refTexts texts).subschema hv hc) hbudget
    · rw [replaceNode, Entries.ref?_mapSchemas, href]
  | @reference chain es ref t w g href _ fresh siblings target _ ih ihtarget =>
    obtain ⟨budget, rfl⟩ : ∃ n, budget = n + 1 := ⟨budget - 1, by omega⟩
    have hspare := spare_append_lt (hv (Entries.mem_refTexts_of_ref? href)) fresh
    rw [result_inlineWithin_succ]
    refine Value.walkM_mapping_eq_ok.mpr ⟨g, fun c hc => ?_, ?_⟩
    · rw [← result_inlineWithin_succ]
      exact ih c hc ((Value.hereditary_refTexts texts).subschema hv hc) hbudget
    · rw [replaceNode, Entries.ref?_mapSchemas, href]
      simp only [fresh, if_false, noteSiblings_congr Entries.keys_mapSchemas, siblings, target]
      exact ihtarget ((Value.hereditary_refTexts texts).resolve hdocument target) (by omega)

/-- **A schema is inlined exactly if there is a derivation under the empty chain.** -/
theorem inline_eq_ok_iff :
    (inline document areas v).result = .ok w ↔ Inlines document areas [] v w := by
  constructor
  · exact inlines_of_inlineWithin
  · intro h
    exact inlineWithin_of_inlines h (List.subset_append_left _ _) (List.subset_append_right _ _)
      (spare_lt_inlineBudget document v)

/-- Derivations of one value agree, whatever their chains. -/
theorem Inlines.unique {other : List String} {w' : Value} (h : Inlines document areas chain v w)
    (h' : Inlines document areas other v w') : w = w' := by
  have hw := inline_eq_ok_iff.mpr (h.shorten (List.nil_subset _))
  have hw' := inline_eq_ok_iff.mpr (h'.shorten (List.nil_subset _))
  exact Except.ok.inj (hw.symm.trans hw')

end ApiSchema
