/-
What is negated is left alone.

Under `not` a schema holds another one, but `not` is none of the slots, so no walk goes
there: the value is kept as it is, whatever becomes of the node around it.  `Occurs`
counts the nodes there as well, at any depth and in any mixture with the slots.

So a draft-04 form still has the `nullable` that the schema has inside of a negation,
and what is inlined still has the references there, and both have no others.  A mapped
node comes from a node of the schema, with the same value under `not`.  An inlined one
comes from a node that is kept, which may stand in a target instead of in the schema,
and then it brings along what it negates.
-/
import ApiSchema.Proofs.Reference.Closed
import ApiSchema.Proofs.Schema.TypeClause

namespace ApiSchema

open Entries (subschemas mapSchemas get? ref?)

/-- The keyword of a schema that is negated. -/
def Keyword.negation : String := "not"

variable {document s v w : Value} {areas chain : List String} {es m node outer : Entries}

/-! ### Nodes below negations -/

/-- The node is in the value, whose schemas are those in the slots and the negated ones. -/
inductive Occurs (node : Entries) : Value → Prop
  /-- It is the root. -/
  | here : Occurs node (.mapping node)
  /-- It is in a schema that a slot holds. -/
  | slot {es : Entries} {c : Value} (hc : c ∈ subschemas es) (below : Occurs node c) :
      Occurs node (.mapping es)
  /-- It is in the schema that is negated. -/
  | negation {es : Entries} {c : Value} (hc : get? es Keyword.negation = some c)
      (below : Occurs node c) : Occurs node (.mapping es)

/-- The second node is in what the first one negates. -/
def Entries.Negates (es node : Entries) : Prop :=
  ∃ c, get? es Keyword.negation = some c ∧ Occurs node c

theorem Entries.Negates.congr (h : Negates es node)
    (hsame : get? outer Keyword.negation = get? es Keyword.negation) : Negates outer node := by
  obtain ⟨c, hc, hoccurs⟩ := h
  exact ⟨c, hsame.trans hc, hoccurs⟩

/-- What occurs in a node of a value occurs in the value. -/
theorem occurs_of_mem_nodes (houter : outer ∈ v.nodes) (h : Occurs node (.mapping outer)) :
    Occurs node v := by
  induction v using Value.schemaRec with
  | atom v hv => simp [Value.nodes_atom hv] at houter
  | node es ih =>
    rcases Value.mem_nodes_mapping.mp houter with ⟨c, hc, hbelow⟩ | rfl
    · exact .slot hc (ih c hc hbelow)
    · exact h

/-- A node occurs at a place or in what is negated at one. -/
theorem occurs_iff : Occurs node v ↔ node ∈ v.nodes ∨ ∃ es ∈ v.nodes, es.Negates node := by
  constructor
  · intro h
    induction h with
    | here => exact .inl (Value.mem_nodes_mapping.mpr (.inr rfl))
    | slot hc _ ih =>
      have hup {es : Entries} (hes : es ∈ _) := Value.mem_nodes_mapping.mpr (.inl ⟨_, hc, hes⟩)
      exact ih.imp hup fun ⟨es, hes, hnegates⟩ => ⟨es, hup hes, hnegates⟩
    | negation hc below _ =>
      exact .inr ⟨_, Value.mem_nodes_mapping.mpr (.inr rfl), _, hc, below⟩
  · rintro (hnode | ⟨es, hes, c, hc, hbelow⟩)
    · exact occurs_of_mem_nodes hnode .here
    · exact occurs_of_mem_nodes hes (.negation hc hbelow)

/-! ### Mapping -/

theorem Entries.Mapped.get?_negation (h : Mapped es node) :
    get? node Keyword.negation = get? es Keyword.negation :=
  h.other (by decide) (by decide) (by decide) (by decide)

/-- The places of a draft-04 form negate what those of the schema do. -/
theorem negates_toDraft4_iff (h : s.toDraft4 = .ok m) :
    (∃ es ∈ (Value.mapping m).nodes, es.Negates node) ↔ ∃ es ∈ s.nodes, es.Negates node := by
  constructor
  · rintro ⟨mapped, hmem, hnegates⟩
    obtain ⟨es, hes, hmapped⟩ := exists_of_mem_mapped h hmem
    exact ⟨es, hes, hnegates.congr hmapped.get?_negation.symm⟩
  · rintro ⟨es, hes, hnegates⟩
    obtain ⟨mapped, hmem, hmapped⟩ := exists_mapped_of_mem h hes
    exact ⟨mapped, hmem, hnegates.congr hmapped.get?_negation⟩

/-- **A draft-04 form has `nullable` exactly where the schema negates it.** -/
theorem occurs_toDraft4_iff (h : s.toDraft4 = .ok m)
    (hnullable : (get? node Keyword.nullable).isSome = true) :
    Occurs node (.mapping m) ↔ ∃ es ∈ s.nodes, es.Negates node := by
  rw [occurs_iff, negates_toDraft4_iff h, or_iff_right]
  intro hnode
  obtain ⟨es, -, hmapped⟩ := exists_of_mem_mapped h hnode
  simp [hmapped.nullable] at hnullable

/-! ### Inlining -/

/-- Inlining the value keeps the node: it is reached through nodes that are no references, and from
a reference through its target, and is no reference itself. -/
inductive Kept (document : Value) (areas : List String) (node : Entries) : Value → Prop
  /-- It is the root. -/
  | here (href : ref? node = none) : Kept document areas node (.mapping node)
  /-- It is kept in a schema that a slot holds. -/
  | slot {es : Entries} {c : Value} (href : ref? es = none) (hc : c ∈ subschemas es)
      (below : Kept document areas node c) : Kept document areas node (.mapping es)
  /-- It is kept in the target. -/
  | target {es : Entries} {ref : String} {t : Value} (href : ref? es = some ref)
      (target : resolve document areas (.reference ref) = .ok t)
      (inside : Kept document areas node t) : Kept document areas node (.mapping es)

/-- Every node of the result is one that is kept, with its schemas replaced. -/
theorem Inlines.exists_kept (h : Inlines document areas chain v w) (hnode : node ∈ w.nodes) :
    ∃ es g, Kept document areas es v ∧ node = mapSchemas g es := by
  induction h with
  | atom hv => simp [Value.nodes_atom hv] at hnode
  | node g href _ ih =>
    rcases Value.exists_of_mem_nodes_mapSchemas hnode with ⟨c, hc, hbelow⟩ | rfl
    · obtain ⟨es, inner, hkept, rfl⟩ := ih c hc hbelow
      exact ⟨es, inner, .slot href hc hkept, rfl⟩
    · exact ⟨_, g, .here href, rfl⟩
  | reference _ href _ _ _ target _ _ ihtarget =>
    obtain ⟨es, inner, hkept, rfl⟩ := ihtarget hnode
    exact ⟨es, inner, .target href target hkept, rfl⟩

/-- Every node that is kept is in the result, with its schemas replaced. -/
theorem Kept.exists_mem_nodes (h : Kept document areas es v)
    (hrun : Inlines document areas chain v w) : ∃ g, mapSchemas g es ∈ w.nodes := by
  induction h generalizing chain w with
  | here href =>
    cases hrun with
    | atom hv => simp [Value.isMapping] at hv
    | node g _ _ => exact ⟨g, Value.mem_nodes_mapping.mpr (.inr rfl)⟩
    | reference _ hother => simp [href] at hother
  | slot href hc _ ih =>
    cases hrun with
    | atom hv => simp [Value.isMapping] at hv
    | node g _ below =>
      obtain ⟨inner, hinner⟩ := ih (below _ hc)
      have hplace := Entries.mem_subschemas_mapSchemas hc (Value.isMapping_of_mem_nodes hinner)
      exact ⟨inner, Value.mem_nodes_mapping.mpr (.inl ⟨_, hplace, hinner⟩)⟩
    | reference _ hother => simp [href] at hother
  | target href target _ ih =>
    cases hrun with
    | atom hv => simp [Value.isMapping] at hv
    | node _ hother => simp [href] at hother
    | reference _ hother _ _ _ htarget expanded =>
      obtain rfl := Option.some.inj (href.symm.trans hother)
      obtain rfl := Except.ok.inj (target.symm.trans htarget)
      exact ih expanded

/-- The places of the result negate what the kept nodes do. -/
theorem Inlines.negates_iff (h : Inlines document areas chain v w) :
    (∃ es ∈ w.nodes, es.Negates node) ↔ ∃ es, Kept document areas es v ∧ es.Negates node := by
  have hsame {es : Entries} {g : Value → Value} :
      get? (mapSchemas g es) Keyword.negation = get? es Keyword.negation :=
    Entries.get?_mapSchemas_of_ne (by decide)
  constructor
  · rintro ⟨new, hnew, hnegates⟩
    obtain ⟨es, g, hkept, rfl⟩ := h.exists_kept hnew
    exact ⟨es, hkept, hnegates.congr hsame.symm⟩
  · rintro ⟨es, hkept, hnegates⟩
    obtain ⟨g, hmem⟩ := hkept.exists_mem_nodes h
    exact ⟨_, hmem, hnegates.congr hsame⟩

/-- **What is inlined has the references that its nodes negate.** -/
theorem occurs_inline_iff (h : (inline document areas v).result = .ok w)
    (href : (ref? node).isSome = true) :
    Occurs node w ↔ ∃ es, Kept document areas es v ∧ es.Negates node := by
  have hinlines := inline_eq_ok_iff.mp h
  rw [occurs_iff, hinlines.negates_iff, or_iff_right]
  intro hnode
  simp [hinlines.ref?_eq_none node hnode] at href

/-! ### Both -/

/-- **Neither the mapping nor inlining reaches what is negated, and nothing else is missed.**  A
node with `nullable` is left in a draft-04 form, at a place or below a negation, exactly if it is in
what some node of the schema negates.  A reference is left in what is inlined exactly if it is in
what some node negates that is kept. -/
theorem occurs_iff_negates (document : Value) (areas : List String) (s w : Value) (m : Entries) :
    (s.toDraft4 = .ok m → ∀ node, (get? node Keyword.nullable).isSome = true →
      (Occurs node (.mapping m) ↔ ∃ es ∈ s.nodes, es.Negates node)) ∧
    ((inline document areas s).result = .ok w → ∀ node, (ref? node).isSome = true →
      (Occurs node w ↔ ∃ es, Kept document areas es s ∧ es.Negates node)) :=
  ⟨fun h _ hnullable => occurs_toDraft4_iff h hnullable,
    fun h _ href => occurs_inline_iff h href⟩

namespace Negated

/-- A node that admits null. -/
def nullable : Entries := [(.str "type", .str "string"), (.str "nullable", .bool true)]

/-- A document whose second schema negates the first one. -/
def root : Value :=
  .mapping [(.str "components", .mapping [(.str "schemas", .mapping [
    (.str "word", .mapping nullable),
    (.str "other", .mapping [(.str "not", .mapping [(.str "anyOf", .array .list
      [.reference "#/components/schemas/word"])])])])])]

/-- A schema that refers to the second one, and that negates a type in a property. -/
def schema : Value :=
  .mapping [
    (.str "additionalProperties", .reference "#/components/schemas/other"),
    (.str "properties", .mapping [(.str "name", .mapping [
      (.str "nullable", .bool true),
      (.str "not", .mapping [(.str "not", .mapping nullable)])])])]

end Negated

/-- The `nullable` of the property is gone, and what it negates is left. -/
theorem occurs_iff_negates_schema :
    (∃ m, Negated.schema.toDraft4 = .ok m ∧ Occurs Negated.nullable (.mapping m)) ∧
      ∃ w, (inline Negated.root defaultAreas Negated.schema).result = .ok w ∧
        Occurs [(.str "$ref", .str "#/components/schemas/word")] w := by
  obtain ⟨m, hm⟩ : ∃ m, Negated.schema.toDraft4 = .ok m := ⟨_, rfl⟩
  obtain ⟨w, hw⟩ : ∃ w, (inline Negated.root defaultAreas Negated.schema).result = .ok w := ⟨_, rfl⟩
  obtain ⟨hmap, hinline⟩ := occurs_iff_negates Negated.root defaultAreas Negated.schema w m
  refine ⟨⟨m, hm, (hmap hm _ rfl).mpr ?_⟩, w, hw, (hinline hw _ rfl).mpr ?_⟩
  · refine ⟨[(.str "nullable", .bool true), (.str "not", .mapping [(.str "not",
      .mapping Negated.nullable)])], by decide, _, rfl, .negation rfl .here⟩
  · refine ⟨_, .slot rfl (c := .reference "#/components/schemas/other") (by decide)
      (.target rfl rfl (.here rfl)), _, rfl, .slot ?_ .here⟩
    exact List.mem_singleton_self _

/-- A negated node keeps its `nullable`, and a negated reference is not replaced. -/
theorem occurs_in_negation :
    (∃ m, (Value.mapping [(.str "not", .mapping Negated.nullable)]).toDraft4 = .ok m ∧
      ∃ node, Occurs node (.mapping m) ∧ get? node Keyword.nullable = some (.bool true)) ∧
    ∃ w, (inline Negated.root defaultAreas
        (.mapping [(.str "not", .reference "#/components/schemas/word")])).result = .ok w ∧
      ∃ node, Occurs node w ∧ ref? node = some "#/components/schemas/word" :=
  ⟨⟨_, rfl, _, .negation rfl .here, rfl⟩, _, rfl, _, .negation rfl .here, rfl⟩

end ApiSchema
