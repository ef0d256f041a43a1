/-
The types of a draft-04 form.

The draft-04 form of a schema has a node for every node of the schema, in the same
order of visiting, and `Entries.Mapped` says what can be read there: no `nullable`,
the type clause with `nullable` folded into it, and under every other keyword what
stood there before.  So a question about all nodes of the draft-04 form is one about
the nodes of the schema, and is decided node by node.

Draft-04 wants the types of a node to be distinct.  A type that admits null is put
before `null`, whatever it is, so the types are distinct unless it is `null` itself.
-/
import ApiSchema.Proofs.Schema.Nullability

namespace ApiSchema

open Entries (subschemas mapSchemas)

/-! ### One node -/

namespace Entries

variable {es node : Entries} {g : Value → Value}

/-- What is read of a node once it has been mapped, apart from its schemas and its dialect. -/
structure Mapped (es node : Entries) : Prop where
  nullable : get? node Keyword.nullable = none
  type : get? node Keyword.type =
    if admitsNull es then (typeText? es).map fun t => .array .list [.str t, .str "null"]
    else get? es Keyword.type
  items : ∀ {kind vs}, get? node Slot.items.keyword = some (.array kind vs) ↔
    get? es Slot.items.keyword = some (.array kind vs)
  other : ∀ {name}, Slot.ofKey? (.str name) = none → name ≠ Keyword.type →
    name ≠ Keyword.nullable → name ≠ Keyword.dialect → get? node name = get? es name

theorem mapped_foldNullable
    (hg : ∀ c ∈ subschemas es, c.isMapping = true → (g c).isMapping = true) :
    Mapped es (foldNullable (mapSchemas g es)) := by
  have hfolded := folded_foldNullable hg
  refine ⟨hfolded.get?_nullable, hfolded.type, ?_, fun hslot htype hnullable _ =>
    hfolded.get?_of_ne hslot htype hnullable⟩
  intro kind vs
  rw [get?_foldNullable_of_ne (by decide) (by decide), get?_items_mapSchemas hg]

theorem Mapped.withDialect (h : Mapped es node) : Mapped es (withDialect node) := by
  refine ⟨?_, ?_, ?_, fun hslot htype hnullable hdialect => ?_⟩
  · exact (get?_withDialect_of_ne (by decide)).trans h.nullable
  · exact (get?_withDialect_of_ne (by decide)).trans h.type
  · intro kind vs
    rw [get?_withDialect_of_ne (by decide), h.items]
  · exact (get?_withDialect_of_ne hdialect).trans (h.other hslot htype hnullable hdialect)

theorem subschemas_foldNullable
    (hg : ∀ c ∈ subschemas es, c.isMapping = true → (g c).isMapping = true) :
    subschemas (foldNullable (mapSchemas g es)) = (subschemas es).map g := by
  rw [subschemas, subschemas, List.map_flatMap]
  congr 1
  funext slot
  exact membersOf_foldNullable hg slot

theorem subschemas_withDialect (es : Entries) : subschemas (withDialect es) = subschemas es := by
  rw [subschemas, subschemas]
  simp only [content?_withDialect]

end Entries

/-! ### All nodes -/

variable {es node : Entries} {v w s : Value} {m : Entries} {g : Value → Value}

theorem forall₂_flatMap {α β γ : Type} {R : β → γ → Prop} {l : List α} {f : α → List β}
    {f' : α → List γ} (h : ∀ a ∈ l, List.Forall₂ R (f a) (f' a)) :
    List.Forall₂ R (l.flatMap f) (l.flatMap f') := by
  have hsame : List.Forall₂ (fun a b => a = b ∧ a ∈ l) l l :=
    List.forall₂_same.mpr fun _ ha => ⟨rfl, ha⟩
  refine List.rel_flatMap hsame ?_
  rintro a _ ⟨rfl, ha⟩
  exact h a ha

/-- The nodes of a node correspond if it is mapped and the nodes of its schemas correspond. -/
theorem mapped_nodes_mapping (hnode : Entries.Mapped es node)
    (hschemas : subschemas node = (subschemas es).map g)
    (hbelow : ∀ c ∈ subschemas es, List.Forall₂ Entries.Mapped c.nodes (g c).nodes) :
    List.Forall₂ Entries.Mapped (Value.mapping es).nodes (Value.mapping node).nodes := by
  rw [Value.nodes_mapping, Value.nodes_mapping, hschemas, List.flatMap_map]
  exact List.rel_append (forall₂_flatMap hbelow) (.cons hnode .nil)

theorem mapped_nodes_of_walkM (h : v.walkM Entries.toDraft4Node = .ok w) :
    List.Forall₂ Entries.Mapped v.nodes w.nodes := by
  induction v using Value.schemaRec generalizing w with
  | atom v hv =>
    rw [Value.walkM_atom _ hv] at h
    obtain rfl := Except.ok.inj h
    rw [Value.nodes_atom hv]
    exact .nil
  | node es ih =>
    obtain ⟨g, hg, hmapping, rfl⟩ := walkM_toDraft4Node_mapping h
    exact mapped_nodes_mapping (Entries.mapped_foldNullable hmapping)
      (Entries.subschemas_foldNullable hmapping) fun c hc => ih c hc (hg c hc)

/-- **The nodes of the draft-04 form are those of the schema, mapped, in the same order.** -/
theorem mapped_nodes (h : s.toDraft4 = .ok m) :
    List.Forall₂ Entries.Mapped s.nodes (Value.mapping m).nodes := by
  obtain ⟨walked, hwalk, rfl⟩ := Interpretation.toDraft4_eq_ok h
  cases s with
  | mapping es =>
    obtain ⟨g, hg, hmapping, hwalked⟩ := walkM_toDraft4Node_mapping hwalk
    obtain rfl := Value.mapping.inj hwalked
    refine mapped_nodes_mapping (Entries.mapped_foldNullable hmapping).withDialect ?_
      fun c hc => mapped_nodes_of_walkM (hg c hc)
    rw [Entries.subschemas_withDialect, Entries.subschemas_foldNullable hmapping]
  | _ => simp [Value.toDraft4] at h

/-- A node of the draft-04 form was one of the schema. -/
theorem exists_of_mem_mapped (h : s.toDraft4 = .ok m) (hnode : node ∈ (Value.mapping m).nodes) :
    ∃ es ∈ s.nodes, Entries.Mapped es node :=
  exists_mem_of_forall₂ (mapped_nodes h) hnode

/-- A node of the schema is one of the draft-04 form. -/
theorem exists_mapped_of_mem (h : s.toDraft4 = .ok m) (hes : es ∈ s.nodes) :
    ∃ node ∈ (Value.mapping m).nodes, Entries.Mapped es node :=
  exists_mem_of_forall₂ (mapped_nodes h).flip hes

/-- What is asked of all nodes of the draft-04 form is decided at the nodes of the schema, one by
one. -/
theorem forall_mapped_iff (h : s.toDraft4 = .ok m) {P Q : Entries → Prop}
    (hPQ : ∀ es ∈ s.nodes, ∀ node, Entries.Mapped es node → (Q node ↔ P es)) :
    (∀ node ∈ (Value.mapping m).nodes, Q node) ↔ ∀ es ∈ s.nodes, P es := by
  constructor
  · intro hQ es hes
    obtain ⟨node, hnode, hmapped⟩ := exists_mapped_of_mem h hes
    exact (hPQ es hes node hmapped).mp (hQ node hnode)
  · intro hP node hnode
    obtain ⟨es, hes, hmapped⟩ := exists_of_mem_mapped h hnode
    exact (hPQ es hes node hmapped).mpr (hP es hes)

/-! ### Legal types -/

/-- What draft-04 has under `type`: a name, or an array of distinct names, which ends in `null` if
the mapping has made it. -/
inductive LegalType : Value → Prop
  /-- One type. -/
  | name (t : String) : LegalType (.str t)
  /-- Several types, the last of which is `null`. -/
  | array {kind : ArrayKind} {names : List String} (distinct : names.Nodup)
      (last : names.getLast? = some "null") : LegalType (.array kind (names.map .str))

theorem legalType_beside_null {t : String} :
    LegalType (.array .list [.str t, .str "null"]) ↔ t ≠ "null" := by
  constructor
  · intro h
    generalize hv : Value.array .list [.str t, .str "null"] = v at h
    cases h with
    | name t => simp at hv
    | @array kind names distinct last =>
      obtain ⟨-, hnames⟩ := Value.array.inj hv
      have hsame : names = [t, "null"] := by
        have hinj : Function.Injective Value.str := fun a b h => by simpa using h
        exact (List.map_injective_iff.mpr hinj) (by simpa using hnames.symm)
      simpa [hsame] using distinct
  · intro hne
    have hdistinct : [t, "null"].Nodup := by simpa using hne
    exact @LegalType.array .list [t, "null"] hdistinct rfl

namespace Entries

/-- The node has a name under `type`, or nothing. -/
def NamesType (es : Entries) : Prop := ∀ v ∈ get? es Keyword.type, v.text?.isSome = true

instance (es : Entries) : Decidable (NamesType es) :=
  inferInstanceAs (Decidable (∀ v ∈ get? es Keyword.type, v.text?.isSome = true))

/-- The node has nothing under `type` that draft-04 does not admit. -/
def LegallyTyped (es : Entries) : Prop := ∀ v ∈ get? es Keyword.type, LegalType v

/-- The type of a node that is changed to admit null is `null` already. -/
def RepeatsNull (es : Entries) : Prop := admitsNull es = true ∧ typeText? es = some "null"

instance (es : Entries) : Decidable (RepeatsNull es) :=
  inferInstanceAs (Decidable (admitsNull es = true ∧ typeText? es = some "null"))

theorem NamesType.exists_eq {es : Entries} {v : Value} (h : NamesType es)
    (hv : get? es Keyword.type = some v) : ∃ t, v = .str t := by
  obtain ⟨t, ht⟩ := Option.isSome_iff_exists.mp (h v hv)
  cases v with
  | scalar s => cases s <;> simp [Value.text?] at ht ⊢
  | _ => simp [Value.text?] at ht

theorem Mapped.legallyTyped_iff {es node : Entries} (h : Mapped es node) (htype : NamesType es) :
    LegallyTyped node ↔ ¬ RepeatsNull es := by
  rw [LegallyTyped, RepeatsNull, h.type]
  cases admitsNull es with
  | false =>
    simp only [Bool.false_eq_true, if_false, false_and, not_false_iff, iff_true]
    intro v hv
    obtain ⟨t, rfl⟩ := htype.exists_eq hv
    exact .name t
  | true =>
    cases typeText? es with
    | none => simp
    | some t => simp [legalType_beside_null]

end Entries

/-- **Draft-04 admits every type of a draft-04 form, unless null is admitted beside `null`.**  Of a
schema whose types are names, the draft-04 form has a name or an array of distinct names that ends
in `null` under each `type`, exactly if no node with a truthy `nullable` and without a reference has
the type `null`. -/
theorem legallyTyped_toDraft4_iff (h : s.toDraft4 = .ok m)
    (htypes : ∀ es ∈ s.nodes, Entries.NamesType es) :
    (∀ node ∈ (Value.mapping m).nodes, Entries.LegallyTyped node) ↔
      ∀ es ∈ s.nodes, ¬ Entries.RepeatsNull es :=
  forall_mapped_iff h fun es hes _ hmapped => hmapped.legallyTyped_iff (htypes es hes)

namespace Typed

/-- A schema with nullable types at the root, in a property and beside a reference, and with the type
`null` where nothing is nullable. -/
def schema : Value :=
  .mapping [
    (.str "type", .str "object"),
    (.str "nullable", .bool true),
    (.str "properties", .mapping [
      (.str "name", .mapping [(.str "nullable", .scalar (.int 1)), (.str "type", .str "string")]),
      (.str "any", .mapping [(.str "nullable", .bool true)]),
      (.str "owner", .mapping [(.str "$ref", .str "#/a"), (.str "type", .str "null"),
        (.str "nullable", .bool true)])]),
    (.str "anyOf", .array .tuple [.mapping [(.str "type", .str "null")]])]

/-- A node whose type is `null` and is to admit null. -/
def nullable : Entries := [(.str "type", .str "null"), (.str "nullable", .bool true)]

end Typed

/-- Neither the type beside the reference nor the one under `anyOf` is changed. -/
theorem legallyTyped_toDraft4_schema :
    ∃ m, Typed.schema.toDraft4 = .ok m ∧
      ∀ node ∈ (Value.mapping m).nodes, Entries.LegallyTyped node := by
  obtain ⟨m, hm⟩ : ∃ m, Typed.schema.toDraft4 = .ok m := ⟨_, rfl⟩
  have htypes : ∀ es ∈ Typed.schema.nodes, Entries.NamesType es := by decide
  exact ⟨m, hm, (legallyTyped_toDraft4_iff hm htypes).mpr (by decide)⟩

/-- The type of the node becomes an array that lists `null` twice. -/
theorem toDraft4_repeats_null :
    (∀ es ∈ (Value.mapping Typed.nullable).nodes, Entries.NamesType es) ∧
      ∃ m, (Value.mapping Typed.nullable).toDraft4 = .ok m ∧
        Entries.get? m Keyword.type = some (.array .list [.str "null", .str "null"]) ∧
        ¬ ∀ node ∈ (Value.mapping m).nodes, Entries.LegallyTyped node := by
  refine ⟨by decide, _, rfl, rfl, fun hlegal => ?_⟩
  have htype := hlegal _ (Value.mem_nodes_mapping.mpr (.inr rfl)) _ rfl
  exact legalType_beside_null.mp htype rfl

end ApiSchema
