/-
Keys beside a reference.

Replacing a reference sorts the keys beside it for the log, and sorting fails on
keys that have no order, and on those alone.  In a document whose keys are all texts,
at any depth, it never does, and neither does it in the targets of references.
-/
import ApiSchema.Proofs.KeyOrder
import ApiSchema.Proofs.Parts
import ApiSchema.Reference.Inline

namespace ApiSchema

namespace Value

mutual

/-- All keys in the value are texts, at any depth. -/
def textKeys : Value → Bool
  | .scalar _ => true
  | .array _ items => itemsTextKeys items
  | .mapping es => entriesTextKeys es

/-- All keys in items are texts. -/
def itemsTextKeys : List Value → Bool
  | [] => true
  | v :: vs => textKeys v && itemsTextKeys vs

/-- All keys of entries and in their values are texts. -/
def entriesTextKeys : List (Scalar × Value) → Bool
  | [] => true
  | (k, v) :: es => k.isText && (textKeys v && entriesTextKeys es)

end

theorem itemsTextKeys_iff {vs : List Value} :
    itemsTextKeys vs = true ↔ ∀ v ∈ vs, v.textKeys = true := by
  induction vs with
  | nil => simp [itemsTextKeys]
  | cons v vs ih => simp [itemsTextKeys, ih]

theorem textKeys_mapping_iff {es : Entries} :
    (mapping es).textKeys = true ↔ ∀ e ∈ es, e.1.isText = true ∧ e.2.textKeys = true := by
  rw [textKeys]
  induction es with
  | nil => simp [entriesTextKeys]
  | cons e es ih =>
    obtain ⟨k, v⟩ := e
    simp [entriesTextKeys, ih, and_assoc]

theorem hereditary_textKeys : Hereditary fun v => v.textKeys = true where
  entry _ h e he := (textKeys_mapping_iff.mp h e he).2
  item _ _ h := itemsTextKeys_iff.mp h

end Value

/-! ### Keys beside a reference -/

/-- The keys of a node beside its reference. -/
def Entries.siblings (es : Entries) : List Scalar := (keys es).filter fun k => k ≠ .str Keyword.ref

variable {es : Entries}

theorem exists_sort_siblings_iff :
    (∃ sorted, Scalar.sortByKey ((Entries.siblings es).map fun k => (k, ())) = some sorted) ↔
      Scalar.Sortable (Entries.siblings es) := by
  rw [Scalar.exists_sortByKey_iff, List.map_map, Function.comp_def, List.map_id']

/-- A reference can be replaced if the keys beside it can be sorted. -/
theorem noteSiblings_of_sortable (ref : String) (h : Scalar.Sortable (Entries.siblings es)) :
    (noteSiblings ref es).result = .ok () := by
  rw [noteSiblings]
  split
  · rfl
  · obtain ⟨sorted, hsorted⟩ := exists_sort_siblings_iff.mpr h
    rw [Entries.siblings] at hsorted
    simp only [siblingKeys, hsorted]
    rfl

/-- If they cannot be sorted, they have no order. -/
theorem noteSiblings_of_not_sortable (ref : String) (h : ¬ Scalar.Sortable (Entries.siblings es)) :
    (noteSiblings ref es).result = .error (.fault .unorderedKeys) := by
  rw [noteSiblings]
  split
  · next hshort =>
    refine absurd (Scalar.sortable_of_length_le ?_) h
    exact Nat.le_trans (List.length_filter_le _ _) (by simpa [Entries.keys] using hshort)
  · have hnone : Scalar.sortByKey ((Entries.siblings es).map fun k => (k, ())) = none := by
      rw [Option.eq_none_iff_forall_ne_some]
      exact fun sorted hsorted => h (exists_sort_siblings_iff.mp ⟨sorted, hsorted⟩)
    rw [Entries.siblings] at hnone
    simp only [siblingKeys, hnone]
    rfl

theorem noteSiblings_of_textKeys (ref : String) (h : (Value.mapping es).textKeys = true) :
    (noteSiblings ref es).result = .ok () := by
  refine noteSiblings_of_sortable ref (Scalar.sortable_of_isText fun k hk => ?_)
  obtain ⟨e, he, rfl⟩ := List.mem_map.mp (List.mem_filter.mp hk).1
  exact (Value.textKeys_mapping_iff.mp h e he).1

end ApiSchema
