/-
Values that JSON has.

They are null, truth values, integers, texts, arrays and mappings whose keys are
distinct texts.  Only an integer can be too much for the writer, by its digits, so
`Plain` asks for one that can be written.

JSON has one kind of array, so a value that is read back has all its arrays of the
ordinary kind.  That changes neither the keys of a mapping nor their order.
-/
import ApiSchema.Proofs.Json.Arrangement

namespace ApiSchema

/-! ### Plain values -/

/-- The scalar is null, a truth value, a text or an integer that can be written. -/
def Scalar.isPlain : Scalar → Bool
  | null | bool _ | str _ => true
  | int n => Numeral.isWritable n
  | _ => false

/-- The value is built from plain scalars, arrays and mappings whose keys are distinct texts. -/
inductive Json.Plain : Value → Prop
  | scalar {s : Scalar} (plain : s.isPlain = true) : Plain (.scalar s)
  | array (kind : ArrayKind) {items : List Value} (items_plain : ∀ v ∈ items, Plain v) :
    Plain (.array kind items)
  | mapping {es : Entries} (named : Entries.Named es) (values_plain : ∀ e ∈ es, Plain e.2) :
    Plain (.mapping es)

namespace Value

mutual

/-- The value with every array of the ordinary kind. -/
def lists : Value → Value
  | scalar s => scalar s
  | array _ items => array .list (itemLists items)
  | mapping es => mapping (entryLists es)

/-- Items with every array of the ordinary kind. -/
def itemLists : List Value → List Value
  | [] => []
  | v :: vs => lists v :: itemLists vs

/-- Entries with every array of the ordinary kind. -/
def entryLists : List (Scalar × Value) → List (Scalar × Value)
  | [] => []
  | (k, v) :: es => (k, lists v) :: entryLists es

end

theorem itemLists_eq (vs : List Value) : itemLists vs = vs.map lists := by
  induction vs with
  | nil => rfl
  | cons v vs ih => rw [itemLists, ih, List.map_cons]

theorem entryLists_eq (es : Entries) : entryLists es = es.map fun e => (e.1, lists e.2) := by
  induction es with
  | nil => rfl
  | cons e es ih => rw [entryLists, ih, List.map_cons]

end Value

namespace Entries

/-- A name that is new stands behind all others. -/
theorem insert_of_get?_none {es : Entries} {name : String} {v : Value} (h : get? es name = none) :
    insert es (.str name) v = es ++ [(.str name, v)] := by
  induction es with
  | nil => rfl
  | cons e es ih =>
    obtain ⟨k, w⟩ := e
    rw [get?_cons] at h
    split at h
    · simp at h
    · next hne => rw [insert, if_neg (mt Scalar.same_str.mp hne), ih h, List.cons_append]

/-- Entries whose keys are distinct texts are read one by one as they are. -/
theorem Named.ofPairs_eq {es : Entries} (h : Named es) : Entries.ofPairs es = es := by
  -- What was read before stands in front, and none of the keys to come is among its keys.
  have happend (front es : Entries) (h : Named (front ++ es)) :
      es.foldl (fun es p => Entries.insert es p.1 p.2) front = front ++ es := by
    induction es generalizing front with
    | nil => simp
    | cons e es ih =>
      obtain ⟨key, v⟩ := e
      have hname : key = .str key.name := Scalar.eq_str_name (h.texts key (by simp [keys]))
      have hnone : get? front key.name = none := by
        have hnodup : (keys front ++ keys ((key, v) :: es)).Nodup := by
          simpa [keys] using h.nodup
        rw [get?_eq_none_iff, ← hname]
        exact fun hmem => (List.nodup_append.mp hnodup).2.2 key hmem key (by simp [keys]) rfl
      rw [List.foldl_cons, hname, insert_of_get?_none hnone, ih]
      · simp
      · rw [List.append_assoc, ← hname]
        exact h
  exact happend [] es h

end Entries

namespace Json.Plain

variable {v w : Value}

theorem wellKeyed (h : Plain v) : WellKeyed v := by
  induction h with
  | @scalar s _ => exact wellKeyed_scalar s
  | array kind _ ih => exact wellKeyed_array_iff.mpr ih
  | mapping named _ ih => exact wellKeyed_mapping_iff.mpr ⟨named, ih⟩

/-- Being plain does not depend on the order of entries. -/
theorem of_reordered (hreordered : Reordered v w) (h : Plain v) : Plain w := by
  induction hreordered with
  | scalar s => exact h
  | @array kind vs ws length_eq _ ih =>
    cases h with
    | array _ items_plain =>
      refine .array kind fun w hw => ?_
      obtain ⟨v, hmem, hvw⟩ := exists_mem_zip length_eq hw
      exact ih _ hvw (items_plain v hmem)
  | @mapping es fs keys_perm _ ih =>
    cases h with
    | mapping named values_plain =>
      refine .mapping (named.of_perm keys_perm) fun e he => ?_
      obtain ⟨v, hmem⟩ := Entries.exists_mem_of_keys_perm keys_perm he
      exact ih _ v e.2 hmem he (values_plain _ hmem)

end Json.Plain

/-! ### Arrays of the ordinary kind -/

theorem Reordered.lists {v w : Value} (h : Reordered v w) : Reordered v.lists w.lists := by
  induction h with
  | scalar s => exact .scalar s
  | array kind length_eq _ ih =>
    rw [Value.lists, Value.lists, Value.itemLists_eq, Value.itemLists_eq]
    refine .array_of_forall₂ ?_
    rw [List.forall₂_map_left_iff, List.forall₂_map_right_iff, List.forall₂_iff_zip]
    exact ⟨length_eq, fun {a b} hab => ih (a, b) hab⟩
  | mapping keys_perm _ ih =>
    rw [Value.lists, Value.lists, Value.entryLists_eq, Value.entryLists_eq]
    refine .mapping ?_ fun key v w hv hw => ?_
    · rw [Entries.keys, Entries.keys, List.map_map, List.map_map]
      exact keys_perm
    · obtain ⟨e, he, hev⟩ := List.mem_map.mp hv
      obtain ⟨f, hf, hfw⟩ := List.mem_map.mp hw
      obtain ⟨rfl, rfl⟩ := Prod.mk.inj hev
      obtain ⟨hkey, rfl⟩ := Prod.mk.inj hfw
      exact ih e.1 e.2 f.2 he (hkey ▸ hf)

theorem AscendingKeys.lists {v : Value} (h : AscendingKeys v) : AscendingKeys v.lists := by
  induction h with
  | scalar s => exact .scalar s
  | array kind _ ih =>
    rw [Value.lists, Value.itemLists_eq]
    exact .array .list (List.forall_mem_map.mpr ih)
  | mapping ascending _ ih =>
    rw [Value.lists, Value.entryLists_eq]
    exact .mapping (List.pairwise_map.mpr ascending) (List.forall_mem_map.mpr ih)

end ApiSchema
