/-
The mapping to draft-04 does not depend on the order of entries.

A walk visits the schemas of a node in the order of its slots, and under
`properties` in the order of the names.  So the order of a document decides what
is visited first and which failure is reported.  It decides nothing else: alike
nodes hold alike schemas in the same slots, and what a mapper makes of alike nodes
takes their places.  `Alike.walkM` says this for any two mappers that answer alike;
the mapping to draft-04 and the replacement of references are two uses of it.
-/
import ApiSchema.Proofs.Schema.Dialect
import ApiSchema.Proofs.Schema.Rejection
import ApiSchema.Proofs.Value.Reordering

namespace ApiSchema

open Entries (subschemas mapSchemas)

variable {v w : Value} {es fs : Entries} {g g' : Value → Value}

theorem Entries.get?_mapValues {es : Entries} (g : Value → Value) (name : String) :
    get? (es.map fun e => (e.1, g e.2)) name = (get? es name).map g := by
  induction es with
  | nil => rfl
  | cons e es ih =>
    obtain ⟨k, v⟩ := e
    rw [List.map_cons, get?_cons, get?_cons, ih]
    split <;> rfl

/-! ### What slots hold -/

/-- The same arrangement of alike schemas. -/
inductive Content.Alike : Content Value → Content Value → Prop
  | fields {es fs : Entries} (h : ApiSchema.Alike (.mapping es) (.mapping fs)) :
    Content.Alike (.fields es) (.fields fs)
  | one {v w : Value} (h : ApiSchema.Alike v w) : Content.Alike (.one v) (.one w)
  | alternatives (kind : ArrayKind) {vs ws : List Value} (h : List.Forall₂ ApiSchema.Alike vs ws) :
    Content.Alike (.alternatives kind vs) (.alternatives kind ws)

namespace Content.Alike

variable {c d : Content Value}

theorem exists_member (h : Content.Alike c d) {n : Value} (hn : n ∈ d.members) :
    ∃ m ∈ c.members, ApiSchema.Alike m n := by
  cases h with
  | fields h =>
    obtain ⟨e, he, rfl⟩ := List.mem_map.mp hn
    obtain ⟨-, hfs, -⟩ := ApiSchema.Alike.mapping_iff.mp h
    obtain ⟨name, -, hget⟩ := hfs.exists_get?_of_mem he
    obtain ⟨m, hm, halike⟩ := exists_of_rel_some (h.symm.lookup name) hget
    exact ⟨m, List.mem_map_of_mem (Entries.mem_of_get? hm), halike.symm⟩
  | one h => exact ⟨_, List.mem_singleton.mpr rfl, List.mem_singleton.mp hn ▸ h⟩
  | @alternatives kind vs ws h =>
    replace hn : n ∈ ws := hn
    show ∃ m ∈ vs, ApiSchema.Alike m n
    induction h with
    | nil => simp at hn
    | cons hab _ ih =>
      rcases List.mem_cons.mp hn with rfl | hn
      · exact ⟨_, List.mem_cons_self, hab⟩
      · obtain ⟨m, hm, hmn⟩ := ih hn
        exact ⟨m, List.mem_cons_of_mem _ hm, hmn⟩

/-- Replacing the members by alike ones. -/
theorem map (h : Content.Alike c d)
    (hg : ∀ m ∈ c.members, ∀ n ∈ d.members, ApiSchema.Alike m n → ApiSchema.Alike (g m) (g' n)) :
    ApiSchema.Alike (c.map g).toValue (d.map g').toValue := by
  cases h with
  | @fields es fs h =>
    obtain ⟨hes, hfs, hlookup⟩ := ApiSchema.Alike.mapping_iff.mp h
    refine ApiSchema.Alike.mapping_iff.mpr ⟨hes.of_keys List.map_map, hfs.of_keys List.map_map, ?_⟩
    intro name
    rw [Entries.get?_mapValues, Entries.get?_mapValues]
    rcases rel_cases (hlookup name) with ⟨hv, hw⟩ | ⟨v, w, hv, hw, hvw⟩
    · rw [hv, hw]
      exact .none
    · rw [hv, hw]
      refine .some (hg v ?_ w ?_ hvw)
      · exact List.mem_map_of_mem (Entries.mem_of_get? hv)
      · exact List.mem_map_of_mem (Entries.mem_of_get? hw)
  | one h => exact hg _ (List.mem_singleton.mpr rfl) _ (List.mem_singleton.mpr rfl) h
  | @alternatives kind vs ws h =>
    refine ApiSchema.Alike.array_iff.mpr ⟨rfl, ?_⟩
    replace hg : ∀ m ∈ vs, ∀ n ∈ ws, ApiSchema.Alike m n → ApiSchema.Alike (g m) (g' n) := hg
    induction h with
    | nil => exact .nil
    | cons hab _ ih =>
      refine .cons (hg _ List.mem_cons_self _ List.mem_cons_self hab) (ih fun m hm n hn => ?_)
      exact hg m (List.mem_cons_of_mem _ hm) n (List.mem_cons_of_mem _ hn)

end Content.Alike

theorem Alike.slotContent? (slot : Slot) (h : Alike v w) :
    Option.Rel Content.Alike (slot.content? v) (slot.content? w) := by
  have hr := h.reordered
  cases hr with
  | scalar s => exact .none
  | array kind _ _ =>
    obtain ⟨-, hitems⟩ := array_iff.mp h
    cases slot with
    | oneOf | anyOf | allOf => exact .some (.alternatives kind hitems)
    | _ => exact .none
  | mapping _ _ =>
    cases slot with
    | properties => exact .some (.fields h)
    | items | additionalProperties => exact .some (.one h)
    | _ => exact .none

namespace Alike

theorem content? (h : Alike (.mapping es) (.mapping fs)) (slot : Slot) :
    Option.Rel Content.Alike (Entries.content? es slot) (Entries.content? fs slot) := by
  rw [Entries.content?, Entries.content?]
  rcases rel_cases (h.lookup slot.keyword) with ⟨hv, hw⟩ | ⟨v, w, hv, hw, hvw⟩
  · rw [hv, hw]
    exact .none
  · rw [hv, hw]
    exact hvw.slotContent? slot

/-- Every schema of the one node is alike to one of the other. -/
theorem exists_subschema (h : Alike (.mapping es) (.mapping fs)) {d : Value}
    (hd : d ∈ subschemas fs) : ∃ c ∈ subschemas es, Alike c d := by
  obtain ⟨slot, b, hb, hd⟩ := Entries.mem_subschemas.mp hd
  rcases rel_cases (h.content? slot) with ⟨-, hnone⟩ | ⟨a, b', ha, hb', hab⟩
  · rw [hb] at hnone
    cases hnone
  · obtain rfl := Option.some.inj (hb.symm.trans hb')
    obtain ⟨c, hc, hcd⟩ := hab.exists_member hd
    exact ⟨c, Entries.mem_subschemas.mpr ⟨slot, a, ha, hc⟩, hcd⟩

theorem mapSchemas (h : Alike (.mapping es) (.mapping fs))
    (hg : ∀ c ∈ subschemas es, ∀ d ∈ subschemas fs, Alike c d → Alike (g c) (g' d)) :
    Alike (.mapping (mapSchemas g es)) (.mapping (Entries.mapSchemas g' fs)) := by
  obtain ⟨hes, hfs, hlookup⟩ := mapping_iff.mp h
  refine mapping_iff.mpr
    ⟨hes.of_keys Entries.keys_mapSchemas, hfs.of_keys Entries.keys_mapSchemas, fun name => ?_⟩
  cases hslot : Slot.ofKey? (.str name) with
  | none =>
    rw [Entries.get?_mapSchemas_of_ne hslot, Entries.get?_mapSchemas_of_ne hslot]
    exact hlookup name
  | some slot =>
    obtain rfl : name = slot.keyword := Scalar.str.inj (Slot.eq_str_of_ofKey? hslot)
    rw [Entries.get?_mapSchemas, Entries.get?_mapSchemas]
    rcases rel_cases (h.content? slot) with ⟨ha, hb⟩ | ⟨a, b, ha, hb, hab⟩
    · rw [ha, hb]
      exact hlookup slot.keyword
    · rw [ha, hb]
      refine .some (hab.map fun m hm n hn => hg m ?_ n ?_)
      · exact Entries.mem_subschemas.mpr ⟨slot, a, ha, hm⟩
      · exact Entries.mem_subschemas.mpr ⟨slot, b, hb, hn⟩

/-! ### Walks -/

/-- **Walks of alike schemas give alike answers**, if the mappers do for alike nodes. -/
theorem walkM {ε : Type} {f f' : Entries → Except ε Value}
    (hf : ∀ es fs a, Alike (.mapping es) (.mapping fs) → f es = .ok a →
      ∃ b, f' fs = .ok b ∧ Alike a b)
    (h : Alike v w) {a : Value} (ha : v.walkM f = .ok a) :
    ∃ b, w.walkM f' = .ok b ∧ Alike a b := by
  induction v using Value.schemaRec generalizing w a with
  | atom v hv =>
    rw [Value.walkM_atom f hv] at ha
    obtain rfl := Except.ok.inj ha
    exact ⟨w, Value.walkM_atom f' (h.isMapping_eq.trans hv), h⟩
  | node es ih =>
    obtain ⟨fs, rfl⟩ := h.exists_entries
    obtain ⟨g, hg, hnode⟩ := Value.walkM_mapping_eq_ok.mp ha
    -- Every child of the other node is alike to one of this node, whose answer is known.
    have below (c : Value) (hc : c ∈ subschemas es) (d : Value) (hcd : Alike c d) :
        d.walkM f' = .ok (answer (Value.walkM f') d) ∧ Alike (g c) (answer (Value.walkM f') d) := by
      obtain ⟨b, hb, hgb⟩ := ih c hc hcd (hg c hc)
      rw [answer_eq hb]
      exact ⟨hb, hgb⟩
    obtain ⟨b, hb, hab⟩ := hf _ _ a (h.mapSchemas fun c hc d _ hcd => (below c hc d hcd).2) hnode
    refine ⟨b, Value.walkM_mapping_eq_ok.mpr ⟨_, fun d hd => ?_, hb⟩, hab⟩
    obtain ⟨c, hc, hcd⟩ := h.exists_subschema hd
    exact (below c hc d hcd).1

/-! ### The mapping to draft-04 -/

theorem isArrayUnder_iff (h : Alike (.mapping es) (.mapping fs)) (name : String) :
    (∃ kind vs, Entries.get? fs name = some (.array kind vs)) ↔
      ∃ kind vs, Entries.get? es name = some (.array kind vs) := by
  rcases rel_cases (h.lookup name) with ⟨hv, hw⟩ | ⟨v, w, hv, hw, hvw⟩
  · simp [hv, hw]
  · have hr := hvw.reordered
    rw [hv, hw]
    cases hr <;> simp

/-- A node that passes the check passes it with its entries in another order. -/
theorem checkNode (h : Alike (.mapping es) (.mapping fs)) (hes : Entries.checkNode es = .ok ()) :
    Entries.checkNode fs = .ok () := by
  have hnone : error? (Entries.checkNode fs) = none := by
    rw [← Option.not_isSome_iff_eq_none, error?_checkNode_isSome_iff, Entries.HasArray,
      h.isArrayUnder_iff, h.isArrayUnder_iff, ← Entries.HasArray,
      ← error?_checkNode_isSome_iff, hes]
    simp [error?]
  obtain ⟨⟨⟩, hok⟩ := error?_eq_none_iff.mp hnone
  exact hok

theorem admitNull (h : Alike (.mapping es) (.mapping fs)) :
    Alike (.mapping (Entries.admitNull es)) (.mapping (Entries.admitNull fs)) := by
  rw [Entries.admitNull, Entries.admitNull, h.textUnder_eq]
  split
  · refine h.set (array_iff.mpr ⟨rfl, ?_⟩)
    exact .cons (.scalar _) (.cons (.scalar _) .nil)
  · exact h.erase

theorem foldNullable (h : Alike (.mapping es) (.mapping fs)) :
    Alike (.mapping (Entries.foldNullable es)) (.mapping (Entries.foldNullable fs)) := by
  rw [Entries.foldNullable, Entries.foldNullable]
  rcases rel_cases (h.lookup Keyword.nullable) with ⟨hv, hw⟩ | ⟨v, w, hv, hw, hvw⟩
  · rw [hv, hw]
    exact h
  · simp only [hv, hw, hvw.isTruthy_eq, h.ref?_eq]
    split
    · exact h.erase.admitNull
    · exact h.erase

theorem withDialect (h : Alike (.mapping es) (.mapping fs)) :
    Alike (.mapping (Entries.withDialect es)) (.mapping (Entries.withDialect fs)) :=
  h.erase.cons (.scalar _) Entries.get?_erase_self Entries.get?_erase_self

theorem toDraft4Node (h : Alike (.mapping es) (.mapping fs)) {a : Value}
    (ha : Entries.toDraft4Node es = .ok a) :
    ∃ b, Entries.toDraft4Node fs = .ok b ∧ Alike a b := by
  obtain ⟨⟨⟩, hcheck, hnode⟩ := bind_eq_ok.mp ha
  rw [← Except.ok.inj hnode]
  exact ⟨_, bind_eq_ok.mpr ⟨(), h.checkNode hcheck, rfl⟩, h.foldNullable⟩

end Alike

/-- The root of a schema is mapped as every node is, and headed by its dialect. -/
theorem toDraft4_of_walkM {node : Entries}
    (h : (Value.mapping es).walkM Entries.toDraft4Node = .ok (.mapping node)) :
    (Value.mapping es).toDraft4 = .ok (Entries.withDialect node) := by
  rw [Value.walkM_mapping] at h
  obtain ⟨walked, hwalked, hnode⟩ := bind_eq_ok.mp h
  obtain ⟨⟨⟩, hcheck, hfold⟩ := bind_eq_ok.mp hnode
  obtain rfl : Entries.foldNullable walked = node := Value.mapping.inj (Except.ok.inj hfold)
  exact bind_eq_ok.mpr ⟨walked, hwalked, bind_eq_ok.mpr ⟨(), hcheck, rfl⟩⟩

namespace Alike

/-- **If a schema has a draft-04 form, an alike schema has an alike one.** -/
theorem toDraft4 (h : Alike v w) {m : Entries} (hm : v.toDraft4 = .ok m) :
    ∃ n, w.toDraft4 = .ok n ∧ Alike (.mapping m) (.mapping n) := by
  obtain ⟨node, hwalk, rfl⟩ := Interpretation.toDraft4_eq_ok hm
  obtain ⟨b, hb, hnode⟩ := h.walkM (fun _ _ _ hnode ha => hnode.toDraft4Node ha) hwalk
  obtain ⟨node', rfl⟩ := hnode.exists_entries
  cases v with
  | mapping es =>
    obtain ⟨fs, rfl⟩ := h.exists_entries
    exact ⟨_, toDraft4_of_walkM hb, hnode.withDialect⟩
  | _ => simp [Value.toDraft4] at hm

end Alike

end ApiSchema
