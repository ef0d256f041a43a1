/-
Mapping a draft-04 form again.

A draft-04 form is itself a schema, and the mapping can be asked for the form of it.
It never finds anything to do: no node has a `nullable` to fold, and the root is headed
by its dialect already.  A walk that leaves every node alone leaves the schema alone.
But the check comes before the folding, and a type that admits null is an array now,
which the check takes for one of the document.  So a draft-04 form is mapped to itself
or is rejected, and the nodes of the first schema decide which.
-/
import ApiSchema.Proofs.Schema.PostOrder
import ApiSchema.Proofs.Schema.Rejection
import ApiSchema.Proofs.Schema.Reordering
import ApiSchema.Proofs.Schema.TypeClause

namespace ApiSchema

open Entries (subschemas mapSchemas)

/-! ### Walks that leave every node alone -/

section Alone

variable {ε : Type} {f : Entries → Except ε Value} {v : Value}

theorem Entries.mapSchemas_id (es : Entries) : mapSchemas id es = es := by
  have hpure := walkM_pure (m := Except Empty) (.mapping es)
  rw [Value.walkM_mapping_of_ok fun c _ => walkM_pure c] at hpure
  exact Value.mapping.inj (Except.ok.inj hpure)

/-- A mapper that returns every node as it is returns the schema as it is. -/
theorem walkM_of_alone (h : ∀ es ∈ v.nodes, f es = .ok (.mapping es)) : v.walkM f = .ok v := by
  induction v using Value.schemaRec with
  | atom v hv => exact Value.walkM_atom f hv
  | node es ih =>
    have hbelow (c : Value) (hc : c ∈ subschemas es) : c.walkM f = .ok (id c) :=
      ih c hc fun node hnode => h node (Value.mem_nodes_mapping.mpr (.inl ⟨c, hc, hnode⟩))
    rw [Value.walkM_mapping_of_ok hbelow, Entries.mapSchemas_id]
    exact h es (Value.mem_nodes_mapping.mpr (.inr rfl))

end Alone

/-! ### One node -/

namespace Entries

variable {es node : Entries} {cause : Rejection}

/-- The type of the node is listed beside `null` when the node is mapped. -/
def listsNull (es : Entries) : Bool := admitsNull es && (typeText? es).isSome

/-- A mapped node is refused for the types that the mapping has listed, and for nothing else. -/
theorem Mapped.refused_iff (h : Mapped es node) (haccepted : ¬ HasArray es) :
    Refused node cause ↔ listsNull es = true ∧
      ∃ t, typeText? es = some t ∧ cause = .typeArray [.str t, .str "null"] := by
  have hkept {kind ts} : get? es Keyword.type ≠ some (.array kind ts) :=
    fun htypes => haccepted (.inl ⟨kind, ts, htypes⟩)
  constructor
  · intro hrefused
    cases hrefused with
    | itemsArray _ hitems => exact absurd (.inr ⟨_, _, h.items.mp hitems⟩) haccepted
    | typeArray htypes =>
      rw [h.type] at htypes
      split at htypes
      · next hadmits =>
        obtain ⟨t, ht, htypes⟩ := Option.map_eq_some_iff.mp htypes
        obtain ⟨-, rfl⟩ := Value.array.inj htypes
        exact ⟨by rw [listsNull, hadmits, ht]; rfl, t, ht, rfl⟩
      · exact absurd htypes hkept
  · rintro ⟨hlists, t, ht, rfl⟩
    have hadmits : admitsNull es = true := (Bool.and_eq_true_iff.mp hlists).1
    have htypes : get? node Keyword.type = some (.array .list [.str t, .str "null"]) := by
      rw [h.type, if_pos hadmits, ht, Option.map_some]
    exact .typeArray htypes

theorem Mapped.hasArray_iff (h : Mapped es node) (haccepted : ¬ HasArray es) :
    HasArray node ↔ listsNull es = true := by
  rw [Entries.hasArray_iff]
  constructor
  · rintro ⟨cause, hrefused⟩
    exact ((h.refused_iff haccepted).mp hrefused).1
  · intro hlists
    obtain ⟨t, ht⟩ := Option.isSome_iff_exists.mp (Bool.and_eq_true_iff.mp hlists).2
    exact ⟨_, (h.refused_iff haccepted).mpr ⟨hlists, t, ht, rfl⟩⟩

theorem checkNode_of_not_hasArray (h : ¬ HasArray es) : checkNode es = .ok () := by
  cases hcheck : checkNode es with
  | ok => rfl
  | error cause => exact absurd (Entries.hasArray_iff.mpr ⟨cause, checkNode_eq_error_iff.mp hcheck⟩) h

/-- A node without `nullable` that is not refused is left alone. -/
theorem toDraft4Node_of_alone (hnullable : get? es Keyword.nullable = none) (h : ¬ HasArray es) :
    toDraft4Node es = .ok (.mapping es) := by
  rw [toDraft4Node, checkNode_of_not_hasArray h, foldNullable, hnullable]
  rfl

theorem withDialect_withDialect (es : Entries) : withDialect (withDialect es) = withDialect es := by
  have hrest : erase (withDialect es) Keyword.dialect = erase es Keyword.dialect := by
    simp [withDialect, erase]
  rw [withDialect, hrest]
  rfl

end Entries

/-! ### The whole schema -/

variable {s : Value} {m es node : Entries}

/-- No node of a schema that is accepted is refused. -/
theorem not_hasArray_of_toDraft4 (h : s.toDraft4 = .ok m) (hes : es ∈ s.nodes) :
    ¬ Entries.HasArray es := by
  intro harray
  obtain ⟨cause, hfirst⟩ := exists_firstRefused_iff.mpr ⟨es, hes, harray⟩
  cases s with
  | mapping root =>
    rw [(toDraft4_eq_error_iff rfl).mpr hfirst] at h
    simp at h
  | _ => simp [Value.toDraft4] at h

/-- **Where no type is listed beside `null`, a draft-04 form is its own draft-04 form.** -/
theorem toDraft4_again (h : s.toDraft4 = .ok m)
    (hlists : ∀ es ∈ s.nodes, Entries.listsNull es = false) :
    (Value.mapping m).toDraft4 = .ok m := by
  have haccepted : ∀ node ∈ (Value.mapping m).nodes, ¬ Entries.HasArray node := by
    refine (forall_mapped_iff h fun es hes node hmapped => ?_).mpr hlists
    rw [hmapped.hasArray_iff (not_hasArray_of_toDraft4 h hes), Bool.not_eq_true]
  have halone (node : Entries) (hnode : node ∈ (Value.mapping m).nodes) :
      Entries.toDraft4Node node = .ok (.mapping node) := by
    obtain ⟨_, -, hmapped⟩ := exists_of_mem_mapped h hnode
    exact Entries.toDraft4Node_of_alone hmapped.nullable (haccepted node hnode)
  obtain ⟨walked, -, rfl⟩ := Interpretation.toDraft4_eq_ok h
  rw [toDraft4_of_walkM (walkM_of_alone halone), Entries.withDialect_withDialect]

/-- **Where one is, the draft-04 form is rejected for the array that the mapping has made.** -/
theorem toDraft4_rejects_again (h : s.toDraft4 = .ok m)
    (hlists : ∃ es ∈ s.nodes, Entries.listsNull es = true) :
    ∃ es ∈ s.nodes, ∃ t, Entries.listsNull es = true ∧ Entries.typeText? es = some t ∧
      (Value.mapping m).toDraft4 = .error (.typeArray [.str t, .str "null"]) := by
  obtain ⟨es, hes, hes_lists⟩ := hlists
  obtain ⟨node, hnode, hmapped⟩ := exists_mapped_of_mem h hes
  have harray := (hmapped.hasArray_iff (not_hasArray_of_toDraft4 h hes)).mpr hes_lists
  obtain ⟨cause, hfirst⟩ := exists_firstRefused_iff.mpr ⟨node, hnode, harray⟩
  have hrejects := (toDraft4_eq_error_iff rfl).mpr hfirst
  -- The first array that is met need not be the one that is known to be there.
  obtain ⟨before, first, after, hnodes, -, hrefused⟩ := hfirst
  have hfirst : first ∈ (Value.mapping m).nodes := by simp [hnodes]
  obtain ⟨es', hes', hmapped'⟩ := exists_of_mem_mapped h hfirst
  obtain ⟨hlists', t, ht, rfl⟩ :=
    (hmapped'.refused_iff (not_hasArray_of_toDraft4 h hes')).mp hrefused
  exact ⟨es', hes', t, hlists', ht, hrejects⟩

namespace Conversion

/-- **Mapping a draft-04 form again changes nothing, or the form is rejected.**  It is rejected if
some node of the first schema has a truthy `nullable`, a name under `type` and no reference, and then
for an array under `type`. -/
theorem mapLogged_again {first : String} (h : (mapLogged first s).result = .ok m) (name : String) :
    ((∀ es ∈ s.nodes, Entries.listsNull es = false) →
      (mapLogged name (.mapping m)).result = .ok m) ∧
    ((∃ es ∈ s.nodes, Entries.listsNull es = true) →
      ∃ es ∈ s.nodes, ∃ t, Entries.listsNull es = true ∧ Entries.typeText? es = some t ∧
        (mapLogged name (.mapping m)).result =
          .error (.error (.rejected name (.typeArray [.str t, .str "null"])))) := by
  rw [result_mapLogged, mapError_eq_ok] at h
  constructor
  · intro hlists
    rw [result_mapLogged, toDraft4_again h hlists]
    rfl
  · intro hlists
    obtain ⟨es, hes, t, hes_lists, ht, hrejects⟩ := toDraft4_rejects_again h hlists
    refine ⟨es, hes, t, hes_lists, ht, ?_⟩
    rw [result_mapLogged_of_error hrejects]
    rfl

/-- A schema with another dialect in which `nullable` is false, or stands beside a reference, or
without a type. -/
def untypedPet : Value :=
  .mapping [
    (.str "nullable", .bool false),
    (.str "type", .str "object"),
    (.str "$schema", .str "other"),
    (.str "additionalProperties", .mapping [(.str "nullable", .bool true), (.str "enum", .null)]),
    (.str "allOf", .array .tuple [
      .mapping [(.str "type", .str "string"), (.str "$ref", .str "#/a"),
        (.str "nullable", .bool true)]])]

/-- The draft-04 form of the one schema is kept, and that of the other is rejected. -/
theorem mapLogged_again_untypedPet :
    (∃ m, (mapLogged "Pet" untypedPet).result = .ok m ∧
      (mapLogged "" (.mapping m)).result = .ok m) ∧
    ∃ m, (mapLogged "Pet" Typed.schema).result = .ok m ∧
      ∃ t, (mapLogged "" (.mapping m)).result =
        .error (.error (.rejected "" (.typeArray [.str t, .str "null"]))) := by
  obtain ⟨kept, hkept⟩ : ∃ m, (mapLogged "Pet" untypedPet).result = .ok m := ⟨_, rfl⟩
  obtain ⟨changed, hchanged⟩ : ∃ m, (mapLogged "Pet" Typed.schema).result = .ok m := ⟨_, rfl⟩
  obtain ⟨-, -, t, -, -, hrejects⟩ := (mapLogged_again hchanged "").2 (by decide)
  exact ⟨⟨kept, hkept, (mapLogged_again hkept "").1 (by decide)⟩, changed, hchanged, t, hrejects⟩

end Conversion

end ApiSchema
