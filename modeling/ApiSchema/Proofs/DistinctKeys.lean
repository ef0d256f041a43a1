/-
Values with distinct keys.

Putting a value under a key overwrites what stands there, so no key stands twice in a
mapping that is built from pairs.  A mapping with distinct keys yields under a name the
value of the one entry that has the name.

A loader is lawful if no mapping has a key twice in the values that it gives.
-/
import Mathlib.Data.List.Induction
import ApiSchema.Files.Loader
import ApiSchema.Proofs.Parts

namespace ApiSchema

namespace Entries

variable {es : Entries} {key : Scalar} {name : String} {v : Value} {e : Scalar × Value}

theorem mem_insert (h : e ∈ insert es key v) : e ∈ es ∨ e.2 = v ∧ (e.1 = key ∨ e.1 ∈ keys es) := by
  induction es with
  | nil =>
    obtain rfl := List.mem_singleton.mp h
    exact .inr ⟨rfl, .inl rfl⟩
  | cons f es ih =>
    obtain ⟨k, w⟩ := f
    rw [insert] at h
    split at h
    · rcases List.mem_cons.mp h with rfl | he
      · exact .inr ⟨rfl, .inr (by simp [keys])⟩
      · exact .inl (List.mem_cons_of_mem _ he)
    · rcases List.mem_cons.mp h with rfl | he
      · exact .inl (by simp)
      · rcases ih he with he | ⟨hv, hk⟩
        · exact .inl (List.mem_cons_of_mem _ he)
        · exact .inr ⟨hv, hk.imp_right (List.mem_cons_of_mem _)⟩

theorem Distinct.insert (h : Distinct es) : Distinct (insert es key v) := by
  induction es with
  | nil => exact List.pairwise_singleton _ _
  | cons f es ih =>
    obtain ⟨k, w⟩ := f
    obtain ⟨hhead, htail⟩ := List.pairwise_cons.mp h
    rw [Entries.insert]
    split
    · exact List.pairwise_cons.mpr ⟨hhead, htail⟩
    · next hkey =>
      refine List.pairwise_cons.mpr ⟨fun e he => ?_, ih htail⟩
      rcases mem_insert he with he | ⟨-, hk | hk⟩
      · exact hhead e he
      · rw [hk]
        exact Bool.eq_false_iff.mpr hkey
      · obtain ⟨e', he', hkeys⟩ := List.mem_map.mp hk
        rw [← hkeys]
        exact hhead e' he'

/-- What holds of the empty mapping and is kept by putting a value under a key holds of entries
that are read one by one. -/
theorem ofPairs_induction {P : Entries → Prop} {pairs : List (Scalar × Value)} (hnil : P [])
    (hinsert : ∀ es, P es → ∀ e ∈ pairs, P (insert es e.1 e.2)) : P (ofPairs pairs) :=
  List.foldlRecOn pairs _ hnil hinsert

theorem distinct_ofPairs (pairs : List (Scalar × Value)) : Distinct (ofPairs pairs) :=
  ofPairs_induction List.Pairwise.nil fun _ h _ _ => h.insert

theorem mem_ofPairs {pairs : List (Scalar × Value)} (h : e ∈ ofPairs pairs) :
    ∃ p ∈ pairs, e.2 = p.2 := by
  refine ofPairs_induction (P := fun es => ∀ e ∈ es, ∃ p ∈ pairs, e.2 = p.2) (by simp) ?_ e h
  intro es hes p hp e he
  rcases mem_insert he with he | ⟨hv, -⟩
  · exact hes e he
  · exact ⟨p, hp, hv⟩

/-- Putting a value under a key changes what stands under the name that the key is, if any. -/
theorem get?_insert :
    get? (insert es key v) name = if key = .str name then some v else get? es name := by
  induction es with
  | nil => rfl
  | cons f es ih =>
    obtain ⟨k, w⟩ := f
    rw [insert]
    split
    · next hkey =>
      rw [get?_cons, get?_cons]
      by_cases hk : k = .str name
      · have hname : key = .str name := Scalar.same_str.mp (by rwa [Scalar.same_comm, ← hk])
        rw [if_pos hk, if_pos hname]
      · have hname : key ≠ .str name := fun hname => hk (Scalar.same_str.mp (hname ▸ hkey))
        rw [if_neg hk, if_neg hname]
        simp [hk]
    · next hkey =>
      rw [get?_cons, get?_cons, ih]
      by_cases hk : k = .str name
      · have hname : key ≠ .str name := fun hname => hkey (by rw [hk, hname, Scalar.same_self])
        rw [if_pos hk, if_neg hname, if_pos hk]
      · rw [if_neg hk, if_neg hk]

/-- Of entries that are read one by one the last one under a name counts. -/
theorem get?_ofPairs (pairs : List (Scalar × Value)) :
    get? (ofPairs pairs) name = get? pairs.reverse name := by
  induction pairs using List.reverseRecOn with
  | nil => rfl
  | append_singleton pairs p ih =>
    rw [ofPairs, List.foldl_append, List.reverse_append]
    show get? (insert (ofPairs pairs) p.1 p.2) name = get? (p :: pairs.reverse) name
    rw [get?_insert, ih]
    rfl

/-- Under a name stands the value of the entry that has it. -/
theorem Distinct.get?_of_mem (h : Distinct es) (hmem : (.str name, v) ∈ es) :
    get? es name = some v := by
  induction es with
  | nil => simp at hmem
  | cons f es ih =>
    obtain ⟨k, w⟩ := f
    obtain ⟨hhead, htail⟩ := List.pairwise_cons.mp h
    rw [get?_cons]
    rcases List.mem_cons.mp hmem with heq | hmem
    · obtain ⟨rfl, rfl⟩ := Prod.mk.inj heq
      rw [if_pos rfl]
    · have hne : k ≠ .str name := fun hk => by simpa [hk] using hhead _ hmem
      rw [if_neg hne, ih htail hmem]

end Entries

/-- Every mapping in the value has distinct keys. -/
inductive DistinctKeys : Value → Prop
  | scalar (s : Scalar) : DistinctKeys (.scalar s)
  | array (kind : ArrayKind) {items : List Value} (items_distinct : ∀ v ∈ items, DistinctKeys v) :
    DistinctKeys (.array kind items)
  | mapping {es : Entries} (distinct : Entries.Distinct es)
    (values_distinct : ∀ e ∈ es, DistinctKeys e.2) : DistinctKeys (.mapping es)

namespace DistinctKeys

theorem distinct {es : Entries} (h : DistinctKeys (.mapping es)) : Entries.Distinct es := by
  cases h with
  | mapping distinct _ => exact distinct

theorem hereditary : Hereditary DistinctKeys where
  entry _ h := by
    cases h with
    | mapping _ values_distinct => exact values_distinct
  item _ _ h := by
    cases h with
    | array _ items_distinct => exact items_distinct

end DistinctKeys

/-- The mappings of a loader have distinct keys, at any depth. -/
class LawfulLoader [Loader] : Prop where
  distinctKeys : ∀ {text : String} {v : Value}, Loader.load text = .ok v → DistinctKeys v

end ApiSchema
