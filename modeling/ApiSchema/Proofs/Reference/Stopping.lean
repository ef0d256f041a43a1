/-
Expansions that stop at keys without order.

Replacing a reference sorts the keys beside it for the log.  Where they have no order the
run ends, and neither with a schema nor with an error of a reference.  `Stops` says when
that happens, by the rules of the expansion: the schemas of a node come before the node,
and what comes before the end can be inlined.

A run that ends so gives a derivation at once.  In the other direction the budget has to
suffice for what is inlined before the end, which is the resource argument of
`Proofs/Reference/Expansion.lean` once more.
-/
import ApiSchema.Proofs.Reference.Expansion
import ApiSchema.Proofs.TextKeys

namespace ApiSchema

open Entries (subschemas mapSchemas)

/-- The expansion of the value stops at keys without order while the references of the chain are
being expanded. -/
inductive Stops (document : Value) (areas : List String) : List String → Value → Prop
  /-- It stops in a schema of a node, and those before it can be inlined. -/
  | schema {chain : List String} {es : Entries} {before after : List Value} {c : Value}
      (split : subschemas es = before ++ c :: after)
      (passed : ∀ x ∈ before, ∃ w, Inlines document areas chain x w)
      (stops : Stops document areas chain c) : Stops document areas chain (.mapping es)
  /-- It stops at the keys beside a reference. -/
  | keys {chain : List String} {es : Entries} {ref : String} (href : Entries.ref? es = some ref)
      (below : ∀ c ∈ subschemas es, ∃ w, Inlines document areas chain c w) (fresh : ref ∉ chain)
      (unsortable : ¬ Scalar.Sortable (Entries.siblings es)) :
      Stops document areas chain (.mapping es)
  /-- It stops in the target of a reference. -/
  | target {chain : List String} {es : Entries} {ref : String} {t : Value}
      (href : Entries.ref? es = some ref)
      (below : ∀ c ∈ subschemas es, ∃ w, Inlines document areas chain c w) (fresh : ref ∉ chain)
      (sortable : Scalar.Sortable (Entries.siblings es))
      (resolves : resolve document areas (.reference ref) = .ok t)
      (stops : Stops document areas (chain ++ [ref]) t) : Stops document areas chain (.mapping es)

variable {document : Value} {areas chain : List String} {v : Value} {budget : Nat} {f : Fault}

theorem not_sortable_of_noteSiblings {ref : String} {es : Entries}
    {failure : Failure ReferenceError} (h : (noteSiblings ref es).result = .error failure) :
    ¬ Scalar.Sortable (Entries.siblings es) := by
  intro hsortable
  rw [noteSiblings_of_sortable ref hsortable] at h
  simp at h

theorem sortable_of_noteSiblings {ref : String} {es : Entries}
    (h : (noteSiblings ref es).result = .ok ()) : Scalar.Sortable (Entries.siblings es) := by
  by_contra hunsortable
  rw [noteSiblings_of_not_sortable ref hunsortable] at h
  simp at h

/-! ### From a run to a derivation -/

theorem stops_of_inlineWithin
    (h : (inlineWithin document areas budget chain v).result = .error (.fault f)) :
    f = .unorderedKeys ∧ Stops document areas chain v := by
  induction budget generalizing chain v with
  | zero => simp [inlineWithin] at h
  | succ budget ih =>
    rw [result_inlineWithin_succ] at h
    have passes {c w : Value} (hc : c.walkM (replaceNode document areas budget chain) = .ok w) :
        Inlines document areas chain c w := by
      rw [← result_inlineWithin_succ] at hc
      exact inlines_of_inlineWithin hc
    induction v using Value.schemaRec with
    | atom v hv => simp [Value.walkM_atom _ hv, pure, Except.pure] at h
    | node es ihbelow =>
      rcases Value.walkM_mapping_eq_error.mp h with
        ⟨before, c, after, hsplit, hbefore, hc⟩ | ⟨g, hg, hnode⟩
      · obtain ⟨hf, hstops⟩ := ihbelow c (by simp [hsplit]) hc
        refine ⟨hf, .schema hsplit (fun x hx => ?_) hstops⟩
        obtain ⟨w, hw⟩ := hbefore x hx
        exact ⟨w, passes hw⟩
      · have hbelow (c : Value) (hc : c ∈ subschemas es) : ∃ w, Inlines document areas chain c w :=
          ⟨g c, passes (hg c hc)⟩
        rw [replaceNode, Entries.ref?_mapSchemas] at hnode
        cases href : Entries.ref? es with
        | none => simp [href] at hnode
        | some ref =>
          simp only [href] at hnode
          by_cases hmem : ref ∈ chain
          · simp [hmem] at hnode
          · rw [if_neg hmem, noteSiblings_congr Entries.keys_mapSchemas] at hnode
            rcases bind_eq_error.mp hnode with hkeys | ⟨⟨⟩, hkeys, hrest⟩
            · obtain ⟨-, hfault⟩ := siblingKeys_of_noteSiblings hkeys
              have hunsortable := not_sortable_of_noteSiblings hkeys
              exact ⟨Failure.fault.inj hfault, .keys href hbelow hmem hunsortable⟩
            · rcases bind_eq_error.mp hrest with hresolve | ⟨t, ht, hinner⟩
              · obtain ⟨cause, -, hcause⟩ := mapError_eq_error.mp hresolve
                simp at hcause
              · obtain ⟨hf, hstops⟩ := ih hinner
                exact ⟨hf, .target href hbelow hmem (sortable_of_noteSiblings hkeys)
                  (mapError_eq_ok.mp ht) hstops⟩

/-! ### From a derivation to a run -/

section Run

variable {es : Entries} {texts : List String}

/-- A run comes to a node if what stands below can be inlined. -/
theorem exists_replaceNode (below : ∀ c ∈ subschemas es, ∃ w, Inlines document areas chain c w)
    (hv : (Value.mapping es).refTexts ⊆ texts) (hdocument : document.refTexts ⊆ texts)
    (hbudget : spare texts chain ≤ budget) :
    ∃ g, (inlineWithin document areas (budget + 1) chain (.mapping es)).result =
      replaceNode document areas budget chain (mapSchemas g es) := by
  choose! g hg using below
  refine ⟨g, ?_⟩
  rw [result_inlineWithin_succ]
  refine Value.walkM_mapping_of_ok fun c hc => ?_
  rw [← result_inlineWithin_succ]
  exact inlineWithin_of_inlines (hg c hc) ((Value.hereditary_refTexts texts).subschema hv hc)
    hdocument (Nat.lt_succ_of_le hbudget)

theorem inlineWithin_of_stops (h : Stops document areas chain v) (hv : v.refTexts ⊆ texts)
    (hdocument : document.refTexts ⊆ texts) (hbudget : spare texts chain ≤ budget) :
    (inlineWithin document areas (budget + 1) chain v).result =
      .error (.fault .unorderedKeys) := by
  induction h generalizing budget with
  | @schema chain es before after c split passed _ ih =>
    have hsubset (c : Value) (hc : c ∈ subschemas es) : c.refTexts ⊆ texts :=
      (Value.hereditary_refTexts texts).subschema hv hc
    rw [result_inlineWithin_succ]
    refine Value.walkM_mapping_of_error split (fun x hx => ?_) ?_
    · obtain ⟨w, hw⟩ := passed x hx
      refine ⟨w, ?_⟩
      rw [← result_inlineWithin_succ]
      exact inlineWithin_of_inlines hw (hsubset x (by simp [split, hx])) hdocument
        (Nat.lt_succ_of_le hbudget)
    · rw [← result_inlineWithin_succ]
      exact ih (hsubset c (by simp [split])) hbudget
  | @keys chain es ref href below fresh unsortable =>
    obtain ⟨g, hg⟩ := exists_replaceNode below hv hdocument hbudget
    rw [hg, replaceNode, Entries.ref?_mapSchemas, href]
    simp only [fresh, if_false, noteSiblings_congr Entries.keys_mapSchemas,
      noteSiblings_of_not_sortable ref unsortable]
    rfl
  | @target chain es ref t href below fresh sortable resolves _ ih =>
    obtain ⟨g, hg⟩ := exists_replaceNode below hv hdocument hbudget
    -- One more text is in the chain, so a smaller budget is enough behind the reference.
    have hspare := spare_append_lt (hv (Entries.mem_refTexts_of_ref? href)) fresh
    obtain ⟨budget, rfl⟩ : ∃ n, budget = n + 1 := ⟨budget - 1, by omega⟩
    rw [hg, replaceNode, Entries.ref?_mapSchemas, href]
    simp only [fresh, if_false, noteSiblings_congr Entries.keys_mapSchemas,
      noteSiblings_of_sortable ref sortable, resolves]
    exact ih ((Value.hereditary_refTexts texts).resolve hdocument resolves) (by omega)

end Run

/-- **Replacing references ends in a fault if the expansion stops at keys without order**, and for
no other reason. -/
theorem inline_fault_iff :
    (inline document areas v).result = .error (.fault f) ↔
      f = .unorderedKeys ∧ Stops document areas [] v := by
  constructor
  · exact stops_of_inlineWithin
  · rintro ⟨rfl, h⟩
    exact inlineWithin_of_stops h (List.subset_append_left _ _) (List.subset_append_right _ _)
      (Nat.le_of_lt_succ (spare_lt_inlineBudget document v))

end ApiSchema
