/-
The graph of references.

A reference leads to those that stand at the places of schemas in its target.
`Reachable` follows this relation from the references of a schema, and a
reference is circular if it leads back to itself.  The graph is global: it knows
nothing of the order in which references are replaced, nor of the chain of those
being expanded.

What makes it finite is that a target is a part of the document, and that the
texts of a part are texts of the whole: every text reached after the first step
stands under `$ref` somewhere in the document.
-/
import ApiSchema.Proofs.Parts
import ApiSchema.Reference.Inline
import Mathlib.Logic.Relation

namespace ApiSchema

/-- A reference with nothing beside it. -/
def Value.reference (ref : String) : Value := .mapping [(.str Keyword.ref, .str ref)]

theorem ref?_reference {ref : String} : Entries.ref? [(.str Keyword.ref, .str ref)] = some ref := rfl

theorem subschemas_reference {ref : String} :
    Entries.subschemas [(.str Keyword.ref, .str ref)] = [] := rfl

theorem resolve_reference (document : Value) (areas : List String) (ref : String) :
    resolve document areas (.reference ref) = resolveText document areas ref := rfl

/-- Following a reference with a log gives the result of following it without. -/
theorem result_resolveLogged (document : Value) (areas : List String) (ref : String) :
    (resolveLogged document areas ref).result =
      (resolve document areas (.reference ref)).mapError .error := by
  rw [resolveLogged, resolve_reference]
  cases resolveText document areas ref <;> rfl

theorem result_resolveLogged_eq_ok_iff {document v : Value} {areas : List String} {ref : String} :
    (resolveLogged document areas ref).result = .ok v ↔
      resolve document areas (.reference ref) = .ok v := by
  rw [result_resolveLogged, mapError_eq_ok]

/-! ### The references of a schema -/

namespace Value

/-- The texts of the reference nodes at the places of schemas, also below reference nodes. -/
def references (v : Value) : List String := v.nodes.filterMap Entries.ref?

theorem references_atom {v : Value} (h : v.isMapping = false) : v.references = [] := by
  rw [references, nodes_atom h, List.filterMap_nil]

theorem mem_references_mapping {es : Entries} {ref : String} :
    ref ∈ references (.mapping es) ↔
      (∃ c ∈ Entries.subschemas es, ref ∈ c.references) ∨ Entries.ref? es = some ref := by
  simp only [references, List.mem_filterMap, mem_nodes_mapping]
  constructor
  · rintro ⟨node, ⟨c, hc, hnode⟩ | rfl, href⟩
    · exact .inl ⟨c, hc, node, hnode, href⟩
    · exact .inr href
  · rintro (⟨c, hc, node, hnode, href⟩ | href)
    · exact ⟨node, .inl ⟨c, hc, hnode⟩, href⟩
    · exact ⟨es, .inr rfl, href⟩

/-! ### The texts of a value -/

theorem refTexts_subset_items {v : Value} {vs : List Value} (h : v ∈ vs) :
    v.refTexts ⊆ itemsRefTexts vs := by
  induction vs with
  | nil => simp at h
  | cons w vs ih =>
    rw [itemsRefTexts]
    rcases List.mem_cons.mp h with rfl | hv
    · exact List.subset_append_left _ _
    · exact List.Subset.trans (ih hv) (List.subset_append_right _ _)

theorem refTexts_subset_entries {e : Scalar × Value} {es : Entries} (h : e ∈ es) :
    e.2.refTexts ⊆ entriesRefTexts es := by
  induction es with
  | nil => simp at h
  | cons f es ih =>
    obtain ⟨k, w⟩ := f
    rw [entriesRefTexts]
    refine List.Subset.trans ?_ (List.subset_append_right _ _)
    rcases List.mem_cons.mp h with rfl | he
    · exact List.subset_append_left _ _
    · exact List.Subset.trans (ih he) (List.subset_append_right _ _)

/-- The texts of a part are texts of the whole. -/
theorem hereditary_refTexts (texts : List String) : Hereditary fun v => v.refTexts ⊆ texts where
  entry _ h _ he := List.Subset.trans (refTexts_subset_entries he) h
  item _ _ h _ hv := List.Subset.trans (refTexts_subset_items hv) h

end Value

theorem Entries.mem_refTexts_of_ref? {es : Entries} {ref : String} (h : ref? es = some ref) :
    ref ∈ (Value.mapping es).refTexts := by
  obtain ⟨v, hv, htext⟩ := Option.bind_eq_some_iff.mp h
  clear h
  rw [Value.refTexts]
  induction es with
  | nil => simp at hv
  | cons e es ih =>
    obtain ⟨k, w⟩ := e
    rw [Value.entriesRefTexts]
    rw [get?_cons] at hv
    by_cases hk : k = .str Keyword.ref
    · rw [if_pos hk] at hv
      cases hv
      simp [hk, htext]
    · rw [if_neg hk] at hv
      simp [ih hv]

/-- Every reference of a schema stands under `$ref` in it. -/
theorem Value.references_subset_refTexts (v : Value) : v.references ⊆ v.refTexts := by
  intro ref href
  obtain ⟨node, hnode, hnoderef⟩ := List.mem_filterMap.mp href
  have hpart := (hereditary_refTexts v.refTexts).node (List.Subset.refl _) hnode
  exact hpart (Entries.mem_refTexts_of_ref? hnoderef)

/-! ### Following references -/

variable {document v t : Value} {areas : List String} {ref next : String}

/-- The second reference stands at the place of a schema in the target of the first one. -/
def LeadsTo (document : Value) (areas : List String) (ref next : String) : Prop :=
  ∃ t, resolve document areas (.reference ref) = .ok t ∧ next ∈ t.references

/-- The reference is one of the schema or is led to by one of them in some number of steps. -/
def Reachable (document : Value) (areas : List String) (v : Value) (ref : String) : Prop :=
  ∃ first ∈ v.references, Relation.ReflTransGen (LeadsTo document areas) first ref

namespace Reachable

variable {es : Entries} {c : Value}

theorem of_mem (h : ref ∈ v.references) : Reachable document areas v ref :=
  ⟨ref, h, .refl⟩

theorem of_subschema (hc : c ∈ Entries.subschemas es) (h : Reachable document areas c ref) :
    Reachable document areas (.mapping es) ref := by
  obtain ⟨first, hfirst, hpath⟩ := h
  exact ⟨first, Value.mem_references_mapping.mpr (.inl ⟨c, hc, hfirst⟩), hpath⟩

theorem of_reference (h : Entries.ref? es = some ref) :
    Reachable document areas (.mapping es) ref :=
  of_mem (Value.mem_references_mapping.mpr (.inr h))

/-- What the target of a reachable reference reaches is reachable. -/
theorem of_target (h : Reachable document areas v ref)
    (ht : resolve document areas (.reference ref) = .ok t)
    (hnext : Reachable document areas t next) : Reachable document areas v next := by
  obtain ⟨first, hfirst, hpath⟩ := h
  obtain ⟨second, hsecond, hrest⟩ := hnext
  exact ⟨first, hfirst, hpath.trans (.head ⟨t, ht, hsecond⟩ hrest)⟩

end Reachable

/-! ### A shared target -/

namespace Sharing

/-- A schema that refers to nothing. -/
def leaf : Value := .mapping [(.str "type", .str "string")]

/-- A schema that holds another one twice. -/
def pair (v : Value) : Entries := [(.str "allOf", .array .list [v, v])]

/-- What the pair of the document refers to, twice. -/
def leafReference : Value := .reference "#/components/schemas/leaf"

/-- A document with a pair of references to one leaf. -/
def root : Value :=
  .mapping [(.str "components", .mapping [(.str "schemas", .mapping [
    (.str "pair", .mapping (pair leafReference)), (.str "leaf", leaf)])])]

end Sharing

end ApiSchema
