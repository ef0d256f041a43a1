/-
Inlining ends.

`inlineWithin` is a plain recursion because it carries a budget.  Without a budget
it is an equation, `IsRun`: a schema is walked, and at a reference the target is
inlined in the same way under a longer chain.  A target may be larger than the
schema that refers to it, may contain it, and may be named by several texts, so
no measure of the value at hand gets smaller.

`Call.Makes` says which calls a call makes.  Two things change along it: going on
to a schema of a node keeps the chain and takes a part of the value, and expanding
a reference takes any value of the document but puts a text on the chain that was
not there.  The texts come from the schema and the document and stay among theirs.
So the pair of the texts that are left and the value decreases, the equation has
exactly one solution, and a budget above the number of texts is never used up,
whatever the answer of an exhausted one would be.
-/
import ApiSchema.Proofs.Reference.Expansion

namespace ApiSchema

open Entries (subschemas mapSchemas)
open Relation (ReflTransGen TransGen)

variable (document : Value) (areas : List String)

/-! ### The recursion without a budget -/

/-- The equation of inlining: a schema is walked, and the targets of its references are inlined
by the same function under a longer chain. -/
def IsRun (run : List String → Value → Traced (Failure ReferenceError) Value) : Prop :=
  ∀ chain v, run chain v = v.walkM (expandNode document areas run chain)

/-- What is made of a node if `isOpen` tells the references that are being expanded. -/
def expandNodeWhen (isOpen : List String → String → Bool)
    (run : List String → Value → Traced (Failure ReferenceError) Value)
    (chain : List String) (es : Entries) : Traced (Failure ReferenceError) Value :=
  match Entries.ref? es with
  | none => return .mapping es
  | some ref =>
    if isOpen chain ref then .fail (.error (.circular (chain ++ [ref])))
    else do
      noteSiblings ref es
      let target ← resolveLogged document areas ref
      run (chain ++ [ref]) target

/-- The test of the program is whether the text of the reference is on the chain. -/
theorem expandNode_eq (run : List String → Value → Traced (Failure ReferenceError) Value) :
    expandNode document areas run =
      expandNodeWhen document areas (fun chain ref => ref ∈ chain) run := by
  funext chain es
  rw [expandNode, expandNodeWhen]
  cases Entries.ref? es with
  | none => rfl
  | some ref => simp only [decide_eq_true_eq]

/-- Inlining within a budget, with any answer for the case that it is used up. -/
def inlineOr (exhausted : List String → Value → Traced (Failure ReferenceError) Value) :
    Nat → List String → Value → Traced (Failure ReferenceError) Value
  | 0, chain, v => exhausted chain v
  | budget + 1, chain, v =>
    v.walkM (expandNode document areas (inlineOr exhausted budget) chain)

theorem inlineWithin_eq_inlineOr (budget : Nat) :
    inlineWithin document areas budget =
      inlineOr document areas (fun chain _ => .fail (.error (.circular chain))) budget := by
  induction budget with
  | zero => rfl
  | succ budget ih =>
    funext chain v
    rw [inlineWithin, inlineOr, ← ih]
    rfl

/-! ### Calls -/

/-- A moment of a run: the references that are being expanded, and the value at hand. -/
structure Call where
  /-- The references that are being expanded, the outermost first. -/
  chain : List String
  /-- The value that is being walked. -/
  value : Value

namespace Call

/-- The second call is made by the first one. -/
inductive Makes : Call → Call → Prop
  /-- The walk goes on to a schema of the node. -/
  | walk {chain : List String} {es : Entries} {c : Value} (h : c ∈ subschemas es) :
      Makes ⟨chain, .mapping es⟩ ⟨chain, c⟩
  /-- A reference that is not being expanded gives way to its target. -/
  | expand {chain : List String} {es : Entries} {ref : String} {t : Value}
      (href : Entries.ref? es = some ref) (fresh : ref ∉ chain)
      (target : resolve document areas (.reference ref) = .ok t) :
      Makes ⟨chain, .mapping es⟩ ⟨chain ++ [ref], t⟩

/-- What holds of every call: no reference is expanded inside itself, and all texts are among the
given ones. -/
structure Within (texts : List String) (call : Call) : Prop where
  distinct : call.chain.Nodup
  expanding : call.chain ⊆ texts
  value : call.value.refTexts ⊆ texts

variable {document : Value} {areas chain texts : List String} {v w t : Value} {es : Entries}
  {ref : String} {call next : Call}

/-- One call keeps the texts. -/
theorem Within.step (h : Within texts call) (hdocument : document.refTexts ⊆ texts)
    (hmakes : Makes document areas call next) : Within texts next := by
  cases hmakes with
  | walk hc =>
    exact ⟨h.distinct, h.expanding, (Value.hereditary_refTexts texts).subschema h.value hc⟩
  | @expand chain es ref t href fresh target =>
    have hmem : ref ∈ texts := h.value (Entries.mem_refTexts_of_ref? href)
    have hnodup : (chain ++ [ref]).Nodup :=
      List.nodup_append.mpr ⟨h.distinct, List.nodup_singleton ref, by
        rintro x hx y hy rfl
        exact fresh (List.mem_singleton.mp hy ▸ hx)⟩
    have hchain : chain ++ [ref] ⊆ texts :=
      List.append_subset.mpr ⟨h.expanding, by simpa using hmem⟩
    exact ⟨hnodup, hchain, (Value.hereditary_refTexts texts).resolve hdocument target⟩

/-- A whole run keeps the texts. -/
theorem Within.run (h : Within texts call) (hdocument : document.refTexts ⊆ texts)
    (hrun : ReflTransGen (Makes document areas) call next) : Within texts next := by
  induction hrun with
  | refl => exact h
  | tail _ hmakes ih => exact ih.step hdocument hmakes

/-- No more references are expanded at a time than there are texts. -/
theorem Within.length_chain_le (h : Within texts call) :
    call.chain.length ≤ texts.toFinset.card := by
  rw [← List.toFinset_card_of_nodup h.distinct]
  exact Finset.card_le_card fun ref href =>
    List.mem_toFinset.mpr (h.expanding (List.mem_toFinset.mp href))

/-! ### Nested calls come to an end -/

/-- The outer induction is on the number of texts that are left, the inner one on the value. -/
theorem acc_makes (hdocument : document.refTexts ⊆ texts) (n : Nat) :
    ∀ chain v, v.refTexts ⊆ texts → spare texts chain ≤ n →
      Acc (fun inner outer => Makes document areas outer inner) ⟨chain, v⟩ := by
  induction n using Nat.strongRecOn with
  | ind n ihexpand =>
    intro chain v
    induction v using Value.schemaRec with
    | atom v hv =>
      intro _ _
      refine Acc.intro _ fun next hmakes => ?_
      cases hmakes <;> simp [Value.isMapping] at hv
    | node es ihwalk =>
      intro hes hspare
      refine Acc.intro _ fun next hmakes => ?_
      cases hmakes with
      | walk hc =>
        exact ihwalk _ hc ((Value.hereditary_refTexts texts).subschema hes hc) hspare
      | expand href fresh target =>
        have hless := spare_append_lt (hes (Entries.mem_refTexts_of_ref? href)) fresh
        exact ihexpand _ (by omega) _ _
          ((Value.hereditary_refTexts texts).resolve hdocument target) (Nat.le_refl _)

/-- **No call makes an endless succession of calls inside each other.** -/
theorem wellFounded_makes (document : Value) (areas : List String) :
    WellFounded fun inner outer => Makes document areas outer inner := by
  refine ⟨fun call => ?_⟩
  have hdocument : document.refTexts ⊆ call.value.refTexts ++ document.refTexts :=
    List.subset_append_right _ _
  exact acc_makes hdocument _ call.chain call.value (List.subset_append_left _ _) (Nat.le_refl _)

/-! ### A run depends on the calls that it makes -/

theorem reaches_node (hnode : es ∈ v.nodes) :
    ReflTransGen (Makes document areas) ⟨chain, v⟩ ⟨chain, .mapping es⟩ := by
  induction v using Value.schemaRec with
  | atom v hv => simp [Value.nodes_atom hv] at hnode
  | node outer ih =>
    rcases Value.mem_nodes_mapping.mp hnode with ⟨c, hc, hmem⟩ | rfl
    · exact .head (.walk hc) (ih c hc hmem)
    · exact .refl

/-- The targets that a walk inlines are those of calls that it makes. -/
theorem makes_target (href : ref ∈ v.references) (fresh : ref ∉ chain)
    (target : resolve document areas (.reference ref) = .ok t) :
    TransGen (Makes document areas) ⟨chain, v⟩ ⟨chain ++ [ref], t⟩ := by
  obtain ⟨es, hnode, hes⟩ := List.mem_filterMap.mp href
  exact .tail' (reaches_node hnode) (.expand hes fresh target)

end Call

variable {document areas} {chain texts : List String} {v : Value}
  {run run' exhausted exhausted' : List String → Value → Traced (Failure ReferenceError) Value}

/-- What is made of a value is decided by what is made of the targets of its references. -/
theorem walkM_expandNodeWhen_congr {isOpen : List String → String → Bool}
    (h : ∀ ref ∈ v.references, isOpen chain ref = false →
      ∀ t, resolve document areas (.reference ref) = .ok t →
        run (chain ++ [ref]) t = run' (chain ++ [ref]) t) :
    v.walkM (expandNodeWhen document areas isOpen run chain) =
      v.walkM (expandNodeWhen document areas isOpen run' chain) := by
  refine Traced.walkM_congr fun node hnode k => ?_
  rw [expandNodeWhen, expandNodeWhen, Entries.ref?_mapSchemas]
  cases href : Entries.ref? node with
  | none => rfl
  | some ref =>
    cases hopen : isOpen chain ref with
    | true => simp [hopen]
    | false =>
      simp only [hopen, Bool.false_eq_true, if_false]
      congr 1
      funext _
      refine Traced.bind_congr_of_ok fun t ht => ?_
      have hnoderef : ref ∈ v.references := List.mem_filterMap.mpr ⟨node, hnode, href⟩
      exact h ref hnoderef hopen t (result_resolveLogged_eq_ok_iff.mp ht)

theorem walkM_expandNode_congr
    (h : ∀ ref ∈ v.references, ref ∉ chain → ∀ t, resolve document areas (.reference ref) = .ok t →
      run (chain ++ [ref]) t = run' (chain ++ [ref]) t) :
    v.walkM (expandNode document areas run chain) =
      v.walkM (expandNode document areas run' chain) := by
  rw [expandNode_eq, expandNode_eq]
  exact walkM_expandNodeWhen_congr fun ref href hfresh => h ref href (by simpa using hfresh)

/-- **What a call returns and logs is decided by the calls that it makes.** -/
theorem walkM_congr_of_makes
    (h : ∀ call, TransGen (Call.Makes document areas) ⟨chain, v⟩ call →
      run call.chain call.value = run' call.chain call.value) :
    v.walkM (expandNode document areas run chain) =
      v.walkM (expandNode document areas run' chain) := by
  refine walkM_expandNode_congr fun ref href fresh t target => ?_
  exact h _ (Call.makes_target href fresh target)

/-! ### Budgets -/

theorem spare_mono {smaller : List String} (h : smaller ⊆ texts) :
    spare smaller chain ≤ spare texts chain := by
  refine Finset.card_le_card (Finset.sdiff_subset_sdiff ?_ (Finset.Subset.refl _))
  intro ref href
  exact List.mem_toFinset.mpr (h (List.mem_toFinset.mp href))

/-- **Budgets above the number of texts that are left give one answer**, in which that of an
exhausted budget has no part. -/
theorem inlineOr_congr (hdocument : document.refTexts ⊆ texts) (hv : v.refTexts ⊆ texts)
    {budget budget' : Nat} (hbudget : spare texts chain < budget)
    (hbudget' : spare texts chain < budget') :
    inlineOr document areas exhausted budget chain v =
      inlineOr document areas exhausted' budget' chain v := by
  induction budget generalizing budget' chain v with
  | zero => omega
  | succ budget ih =>
    obtain ⟨budget', rfl⟩ : ∃ n, budget' = n + 1 := ⟨budget' - 1, by omega⟩
    rw [inlineOr, inlineOr]
    refine walkM_expandNode_congr fun ref href fresh t target => ?_
    have hless := spare_append_lt (hv (Value.references_subset_refTexts v href)) fresh
    exact ih ((Value.hereditary_refTexts texts).resolve hdocument target) (by omega) (by omega)

/-- Inlining under a chain with a budget of its own, which suffices. -/
def sufficientRun (document : Value) (areas : List String) (chain : List String) (v : Value) :
    Traced (Failure ReferenceError) Value :=
  inlineWithin document areas (spare (v.refTexts ++ document.refTexts) chain + 1) chain v

theorem isRun_sufficientRun (document : Value) (areas : List String) :
    IsRun document areas (sufficientRun document areas) := by
  intro chain v
  rw [sufficientRun, inlineWithin_eq_inlineOr, inlineOr]
  refine walkM_expandNode_congr fun ref href fresh t target => ?_
  rw [sufficientRun, inlineWithin_eq_inlineOr]
  have hparts : t.refTexts ++ document.refTexts ⊆ v.refTexts ++ document.refTexts :=
    List.append_subset.mpr
      ⟨(Value.hereditary_refTexts _).resolve (List.subset_append_right _ _) target,
        List.subset_append_right _ _⟩
  have hmem : ref ∈ v.refTexts ++ document.refTexts :=
    List.mem_append_left _ (Value.references_subset_refTexts v href)
  have hless := spare_append_lt hmem fresh
  have hfewer : spare (t.refTexts ++ document.refTexts) (chain ++ [ref]) ≤
      spare (v.refTexts ++ document.refTexts) (chain ++ [ref]) := spare_mono hparts
  exact inlineOr_congr (List.subset_append_right _ _) (List.subset_append_left _ _) (by omega)
    (by omega)

/-- The budget of a whole run suffices too. -/
theorem inline_eq_sufficientRun (document : Value) (areas : List String) (v : Value) :
    inline document areas v = sufficientRun document areas [] v := by
  rw [inline, sufficientRun, inlineWithin_eq_inlineOr, inlineWithin_eq_inlineOr]
  exact inlineOr_congr (List.subset_append_right _ _) (List.subset_append_left _ _)
    (spare_lt_inlineBudget document v) (Nat.lt_succ_self _)

theorem IsRun.unique (h : IsRun document areas run) (h' : IsRun document areas run') :
    run = run' := by
  funext chain v
  have hwf := (Call.wellFounded_makes document areas).transGen
  refine hwf.induction (C := fun call => run call.chain call.value = run' call.chain call.value)
    ⟨chain, v⟩ fun call ih => ?_
  rw [h, h']
  exact walkM_congr_of_makes fun inner hinner => ih inner (Relation.transGen_swap.mpr hinner)

/-- How many different texts stand under `$ref` in the schema and the document. -/
def textCount (document v : Value) : Nat := (v.refTexts ++ document.refTexts).toFinset.card

theorem spare_nil (texts : List String) : spare texts [] = texts.toFinset.card := by
  rw [spare, List.toFinset_nil, Finset.sdiff_empty]

/-- **Inlining ends.**  No call makes an endless succession of calls inside each
other; at every moment of a run the references being expanded are distinct texts
of the schema and the document; the recursion has one solution, which is `inline`,
without regard to any budget; and a budget of one more than there are texts is
never used up. -/
theorem inline_terminates (document : Value) (areas : List String) (v : Value) :
    (WellFounded fun inner outer => Call.Makes document areas outer inner) ∧
    (∀ run run' chain w, (∀ call, TransGen (Call.Makes document areas) ⟨chain, w⟩ call →
        run call.chain call.value = run' call.chain call.value) →
      w.walkM (expandNode document areas run chain) =
        w.walkM (expandNode document areas run' chain)) ∧
    (∀ call, ReflTransGen (Call.Makes document areas) ⟨[], v⟩ call →
      call.chain.Nodup ∧ (∀ ref ∈ call.chain, ref ∈ v.refTexts ∨ ref ∈ document.refTexts) ∧
        call.chain.length ≤ textCount document v) ∧
    (∃! run, IsRun document areas run) ∧
    (∀ run, IsRun document areas run → inline document areas v = run [] v) ∧
    ∀ exhausted budget, textCount document v + 1 ≤ budget →
      inlineOr document areas exhausted budget [] v = inline document areas v := by
  have hbudgets (exhausted budget) (hbudget : textCount document v + 1 ≤ budget) :
      inlineOr document areas exhausted budget [] v = inline document areas v := by
    rw [inline, inlineWithin_eq_inlineOr]
    have hspare := spare_nil (v.refTexts ++ document.refTexts)
    refine inlineOr_congr (List.subset_append_right _ _) (List.subset_append_left _ _) ?_
      (spare_lt_inlineBudget document v)
    rw [textCount] at hbudget
    omega
  have hinline : inline document areas v = sufficientRun document areas [] v := by
    rw [sufficientRun, inlineWithin_eq_inlineOr, spare_nil]
    exact (hbudgets _ _ (Nat.le_refl _)).symm
  refine ⟨Call.wellFounded_makes document areas, fun _ _ _ _ => walkM_congr_of_makes, ?_,
    ⟨_, isRun_sufficientRun document areas, fun run h => h.unique (isRun_sufficientRun _ _)⟩, ?_,
    hbudgets⟩
  · intro call hcall
    have hstart : Call.Within (v.refTexts ++ document.refTexts) ⟨[], v⟩ :=
      ⟨List.nodup_nil, List.nil_subset _, List.subset_append_left _ _⟩
    have hwithin := hstart.run (List.subset_append_right _ _) hcall
    refine ⟨hwithin.distinct, fun ref href => ?_, hwithin.length_chain_le⟩
    exact List.mem_append.mp (hwithin.expanding href)
  · intro run hrun
    rw [hinline, hrun.unique (isRun_sufficientRun document areas)]

namespace Cycle

/-- Two schemas of one document that refer to each other. -/
def root : Value :=
  .mapping [(.str "components", .mapping [(.str "schemas", .mapping [
    (.str "a", .mapping [(.str "items", .reference "#/components/schemas/b")]),
    (.str "b", .mapping [(.str "allOf", .array .tuple [.reference "#/components/schemas/a"])])])])]

end Cycle

/-- Two texts stand in the document, so a budget of three is enough to find the cycle. -/
theorem inline_terminates_cycle :
    textCount Cycle.root (.reference "#/components/schemas/a") + 1 ≤ 3 ∧
      (inlineOr Cycle.root defaultAreas (fun _ _ => return .null) 3 []
        (.reference "#/components/schemas/a")).result =
        .error (.error (.circular ["#/components/schemas/a", "#/components/schemas/b",
          "#/components/schemas/a"])) := by
  have hcount : textCount Cycle.root (.reference "#/components/schemas/a") + 1 ≤ 3 := by decide
  refine ⟨hcount, ?_⟩
  have hends := inline_terminates Cycle.root defaultAreas (.reference "#/components/schemas/a")
  rw [hends.2.2.2.2.2 _ 3 hcount]
  rfl

end ApiSchema
