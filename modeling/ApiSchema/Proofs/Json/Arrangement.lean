/-
The order of fields in JSON text.

The writer arranges the fields of a mapping by their keys when the style asks for
it, and leaves them as they are when it does not.  In a mapping whose keys are
distinct texts there is one ascending arrangement, so with sorted keys the text is
the same for all orders that the entries may have, at any depth.

One of these orders is the ascending one, in which sorting does nothing.  So a text
with sorted keys is also the text that the value has in its ascending order when keys
are left as they are.
-/
import ApiSchema.Json.Writer
import ApiSchema.Proofs.Value.Reordering

namespace ApiSchema

namespace Json

variable (style : Style) (level : Nat)

theorem writeItems_eq (vs : List Value) :
    writeItems style level vs = vs.mapM (write style level) := by
  induction vs with
  | nil => rfl
  | cons v vs ih => rw [writeItems, ih, List.mapM_cons]

theorem writeValues_eq (es : Entries) :
    writeValues style level es = es.map fun e => (e.1, write style level e.2) := by
  induction es with
  | nil => rfl
  | cons e es ih => rw [writeValues, ih, List.map_cons]

variable {style}

theorem arrange_of_sortKeys {α : Type} (h : style.sortKeys = true)
    (fields : List (Scalar × α)) :
    arrange style fields = ((Scalar.sortByKey fields).map .ok).getD (.error .unorderedKeys) := by
  rw [arrange, if_pos h]
  cases Scalar.sortByKey fields <;> rfl

/-- Arranging only moves. -/
theorem perm_of_arrange {α : Type} {fields arranged : List (Scalar × α)}
    (h : arrange style fields = .ok arranged) : arranged.Perm fields := by
  rw [arrange] at h
  split at h
  · cases hsorted : Scalar.sortByKey fields with
    | none => simp [hsorted] at h
    | some sorted =>
      rw [hsorted] at h
      obtain rfl := Except.ok.inj h
      exact Scalar.sortByKey_perm hsorted
  · obtain rfl := Except.ok.inj h
    exact .refl _

/-- **Fields cannot be arranged if they are to be sorted and their keys cannot be.** -/
theorem arrange_eq_error_iff {α : Type} {fields : List (Scalar × α)} {f : Fault} :
    arrange style fields = .error f ↔
      style.sortKeys = true ∧ ¬ Scalar.Sortable (fields.map (·.1)) ∧ f = .unorderedKeys := by
  rw [← Scalar.exists_sortByKey_iff, arrange]
  cases style.sortKeys with
  | false => simp
  | true => cases Scalar.sortByKey fields <;> simp [eq_comm]

end Json

namespace Alike

open Json

variable {style : Style} {v w : Value}

/-- What is made of the values of a mapping is the same in another order, if it is the same under
each key. -/
theorem fields_perm {α : Type} {es fs : Entries} {f : Value → α} (hes : Entries.Named es)
    (hfs : Entries.Named fs) (hkeys : (Entries.keys es).Perm (Entries.keys fs))
    (hsame : ∀ key v w, (key, v) ∈ es → (key, w) ∈ fs → f v = f w) :
    (es.map fun e => (e.1, f e.2)).Perm (fs.map fun e => (e.1, f e.2)) := by
  -- Neither side has a field twice, so it is enough that each has the fields of the other.
  have half {es fs : Entries} (hsub : Entries.keys es ⊆ Entries.keys fs)
      (hsame : ∀ key v w, (key, v) ∈ es → (key, w) ∈ fs → f v = f w) :
      (es.map fun e => (e.1, f e.2)) ⊆ fs.map fun e => (e.1, f e.2) := by
    intro field hfield
    obtain ⟨⟨key, v⟩, hv, rfl⟩ := List.mem_map.mp hfield
    obtain ⟨⟨_, w⟩, hw, rfl⟩ := List.mem_map.mp (hsub (List.mem_map_of_mem hv))
    exact List.mem_map.mpr ⟨_, hw, by rw [hsame _ v w hv hw]⟩
  have hnodup {es : Entries} (hes : Entries.Named es) : (es.map fun e => (e.1, f e.2)).Nodup := by
    refine List.Nodup.of_map (·.1) ?_
    rw [List.map_map]
    exact hes.nodup
  refine (List.perm_ext_iff_of_nodup (hnodup hes) (hnodup hfs)).mpr fun field => ⟨?_, ?_⟩
  · exact fun h => half hkeys.subset hsame h
  · exact fun h => half hkeys.symm.subset (fun key v w hv hw => (hsame key w v hw hv).symm) h

/-- **With sorted keys alike values have the same text.** -/
theorem write_eq (hsort : style.sortKeys = true) (h : Alike v w) (level : Nat) :
    write style level v = write style level w := by
  obtain ⟨hreordered, hv, hw⟩ := h
  induction hreordered generalizing level with
  | scalar s => rfl
  | @array kind vs ws length_eq _ ih =>
    have hitems : vs.map (write style (level + 1)) = ws.map (write style (level + 1)) := by
      rw [← List.forall₂_eq_eq_eq, List.forall₂_map_left_iff, List.forall₂_map_right_iff,
        List.forall₂_iff_zip]
      refine ⟨length_eq, fun {x y} hxy => ?_⟩
      exact ih (x, y) hxy _ (wellKeyed_array_iff.mp hv x (List.of_mem_zip hxy).1)
        (wellKeyed_array_iff.mp hw y (List.of_mem_zip hxy).2)
    have hmapM (us : List Value) :
        writeItems style (level + 1) us = (us.map (write style (level + 1))).mapM id := by
      rw [writeItems_eq, List.mapM_map]
      rfl
    rw [write, write, hmapM, hmapM, hitems]
  | @mapping es fs keys_perm _ ih =>
    obtain ⟨hes, hesvalues⟩ := wellKeyed_mapping_iff.mp hv
    obtain ⟨hfs, hfsvalues⟩ := wellKeyed_mapping_iff.mp hw
    have hperm := fields_perm (f := write style (level + 1)) hes hfs keys_perm
      fun key x y hx hy => ih key x y hx hy _ (hesvalues _ hx) (hfsvalues _ hy)
    have hsorted : Scalar.sortByKey (es.map fun e => (e.1, write style (level + 1) e.2)) =
        Scalar.sortByKey (fs.map fun e => (e.1, write style (level + 1) e.2)) := by
      refine Scalar.sortByKey_congr_perm (fun p hp => ?_) ?_ hperm
      · obtain ⟨e, he, rfl⟩ := List.mem_map.mp hp
        exact hes.texts e.1 (List.mem_map_of_mem he)
      · rw [List.map_map]
        exact hes.nodup
    rw [write, write, writeValues_eq, writeValues_eq, arrange_of_sortKeys hsort,
      arrange_of_sortKeys hsort, hsorted]

theorem render_eq (hsort : style.sortKeys = true) (h : Alike v w) :
    render style v = render style w := by
  rw [render, render, h.write_eq hsort]

end Alike

/-! ### The ascending order -/

/-- In every mapping of the value the names ascend, by code point. -/
inductive AscendingKeys : Value → Prop
  | scalar (s : Scalar) : AscendingKeys (.scalar s)
  | array (kind : ArrayKind) {items : List Value} (items_ascending : ∀ v ∈ items, AscendingKeys v) :
    AscendingKeys (.array kind items)
  | mapping {es : Entries} (ascending : Scalar.Ascending es)
    (values_ascending : ∀ e ∈ es, AscendingKeys e.2) : AscendingKeys (.mapping es)

/-- **Every value with distinct texts as keys has an ascending order.** -/
theorem WellKeyed.exists_ascending {v : Value} (h : WellKeyed v) :
    ∃ w, Reordered v w ∧ AscendingKeys w := by
  obtain ⟨htexts, hdistinct⟩ := h
  induction hdistinct with
  | scalar s => exact ⟨.scalar s, .scalar s, .scalar s⟩
  | @array kind items _ ih =>
    have hitems := Value.hereditary_textKeys.item kind items htexts
    choose! w hw hascends using fun v hv => ih v hv (hitems v hv)
    refine ⟨.array kind (items.map w), .array_of_forall₂ ?_, .array kind ?_⟩
    · exact List.forall₂_map_right_iff.mpr (List.forall₂_same.mpr hw)
    · exact List.forall_mem_map.mpr hascends
  | @mapping es distinct _ ih =>
    have hentries := Value.textKeys_mapping_iff.mp htexts
    have hnamed : Entries.Named es := .of_distinct (List.forall_mem_map.mpr fun e he =>
      (hentries e he).1) distinct
    -- First the values are arranged, each under its key, then the entries are sorted.
    choose! w hw hascends using fun e he => ih e he (hentries e he).2
    have hmapped : ∀ e ∈ es.map fun e => (e.1, w e), e.1.isText = true :=
      List.forall_mem_map.mpr fun e he => (hentries e he).1
    obtain ⟨sorted, -, hperm, hsorted⟩ := Scalar.sortByKey_of_isText hmapped
    refine ⟨.mapping sorted, .mapping ?_ fun key v x hv hx => ?_, .mapping hsorted fun e he => ?_⟩
    · have hkeys := (hperm.map (·.1)).symm
      rwa [List.map_map] at hkeys
    · obtain ⟨e, he, heq⟩ := List.mem_map.mp (hperm.mem_iff.mp hx)
      obtain ⟨hkey, rfl⟩ := Prod.mk.inj heq
      obtain rfl : e = (key, v) := List.inj_on_of_nodup_map hnamed.nodup he hv hkey
      exact hw _ hv
    · obtain ⟨e', he', rfl⟩ := List.mem_map.mp (hperm.mem_iff.mp he)
      exact hascends e' he'

/-- In the ascending order sorting does nothing. -/
theorem AscendingKeys.write_eq {v : Value} (h : AscendingKeys v) (hkeys : WellKeyed v)
    (indent level : Nat) :
    Json.write ⟨indent, true⟩ level v = Json.write ⟨indent, false⟩ level v := by
  induction h generalizing level with
  | scalar s => rfl
  | @array kind items _ ih =>
    have hitems : Json.writeItems ⟨indent, true⟩ (level + 1) items =
        Json.writeItems ⟨indent, false⟩ (level + 1) items := by
      rw [Json.writeItems_eq, Json.writeItems_eq]
      exact mapM_congr fun v hv => ih v hv (wellKeyed_array_iff.mp hkeys v hv) (level + 1)
    rw [Json.write, Json.write, hitems]
    rfl
  | @mapping es ascending _ ih =>
    obtain ⟨hnamed, hvalues⟩ := wellKeyed_mapping_iff.mp hkeys
    have hfields : Json.writeValues ⟨indent, true⟩ (level + 1) es =
        Json.writeValues ⟨indent, false⟩ (level + 1) es := by
      rw [Json.writeValues_eq, Json.writeValues_eq]
      exact List.map_congr_left fun e he => by rw [ih e he (hvalues e he)]
    have hsort : Scalar.sortByKey (Json.writeValues ⟨indent, false⟩ (level + 1) es) =
        some (Json.writeValues ⟨indent, false⟩ (level + 1) es) := by
      rw [Json.writeValues_eq, Scalar.sortByKey_eq_some_iff]
      · exact ⟨.refl _, List.pairwise_map.mpr ascending⟩
      · exact List.forall_mem_map.mpr fun e he => hnamed.texts e.1 (List.mem_map_of_mem he)
      · rw [List.map_map]
        exact hnamed.nodup
    rw [Json.write, Json.write, hfields, Json.arrange_of_sortKeys rfl, hsort]
    rfl

end ApiSchema
