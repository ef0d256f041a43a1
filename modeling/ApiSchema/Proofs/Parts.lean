/-
Properties that pass to the parts of a value.

A value is looked into in three ways: under a key, at the places of schemas, and
along the pointer of a reference.  Each of them ends at a part of the value it
starts from.  So a property that passes from a value to its entries and items
holds wherever one of the three arrives, and this is shown once for all such
properties.
-/
import ApiSchema.Proofs.Result
import ApiSchema.Proofs.Schema.Content
import ApiSchema.Reference.Resolve

namespace ApiSchema

theorem Entries.mem_of_get? {es : Entries} {name : String} {v : Value} (h : get? es name = some v) :
    (.str name, v) ∈ es := by
  induction es with
  | nil => simp at h
  | cons e es ih =>
    obtain ⟨k, w⟩ := e
    rw [get?_cons] at h
    by_cases hk : k = .str name
    · rw [if_pos hk] at h
      cases h
      simp [hk]
    · rw [if_neg hk] at h
      exact List.mem_cons_of_mem _ (ih h)

/-- What holds of a value holds of its entries and items. -/
structure Hereditary (P : Value → Prop) : Prop where
  entry : ∀ es : Entries, P (.mapping es) → ∀ e ∈ es, P e.2
  item : ∀ kind vs, P (.array kind vs) → ∀ v ∈ vs, P v

namespace Hereditary

variable {P : Value → Prop} {es inner : Entries} {c v t document : Value} {name : String}
  {areas passed place : List String}

theorem get? (hP : Hereditary P) (h : P (.mapping es)) (hv : Entries.get? es name = some v) :
    P v :=
  hP.entry es h _ (Entries.mem_of_get? hv)

theorem subschema (hP : Hereditary P) (h : P (.mapping es)) (hc : c ∈ Entries.subschemas es) :
    P c := by
  obtain ⟨slot, content, hcontent, hc⟩ := Entries.mem_subschemas.mp hc
  obtain ⟨v, hv, hslot⟩ := Option.bind_eq_some_iff.mp hcontent
  have hvalue := hP.get? h hv
  rw [← Slot.toValue_of_content? hslot] at hvalue
  cases content with
  | fields fs =>
    obtain ⟨e, he, rfl⟩ := List.mem_map.mp hc
    exact hP.entry fs hvalue e he
  | one m =>
    rw [List.mem_singleton.mp hc]
    exact hvalue
  | alternatives kind vs => exact hP.item kind vs hvalue c hc

theorem node (hP : Hereditary P) (h : P v) (hinner : inner ∈ v.nodes) : P (.mapping inner) := by
  induction v using Value.schemaRec with
  | atom v hv => simp [Value.nodes_atom hv] at hinner
  | node es ih =>
    rcases Value.mem_nodes_mapping.mp hinner with ⟨c, hc, hmem⟩ | rfl
    · exact ih c hc (hP.subschema h hc) hmem
    · exact h

theorem follow (hP : Hereditary P) (h : P v) (ht : follow v passed place = .ok t) : P t := by
  induction place generalizing v passed with
  | nil =>
    obtain rfl := Except.ok.inj ht
    exact h
  | cons name place ih =>
    rw [ApiSchema.follow] at ht
    cases hchild : v.child? name with
    | none => simp [hchild] at ht
    | some w =>
      simp only [hchild] at ht
      refine ih ?_ ht
      cases v with
      | mapping es => exact hP.get? h hchild
      | _ => simp [Value.child?] at hchild

/-- What holds of a document holds of every target in it. -/
theorem resolve (hP : Hereditary P) (h : P document) (ht : resolve document areas v = .ok t) :
    P t := by
  rw [ApiSchema.resolve] at ht
  split at ht
  · obtain ⟨pointer, -, htarget⟩ := bind_eq_ok.mp ht
    split at htarget
    · next w hfollow =>
      obtain rfl := Except.ok.inj htarget
      exact hP.follow h hfollow
    · simp [throw, throwThe, MonadExceptOf.throw] at htarget
  · simp at ht

end Hereditary

end ApiSchema
