/-
Values that differ in the order of entries only.

Two documents may write the same keys in another order, and so may mappings
inside of them.  `Reordered` says that this is all they differ in.  It takes two
assumptions to make anything of it: keys are texts, because other keys have no
order to sort by, and no key stands twice, because only the first one is read.

With them a mapping is what it answers under each name: `alike_mapping_iff` says
that two mappings are reordered exactly if under every name they have reordered
values or none.  So whatever is done to a mapping by names is done alike to both
of them, and this is shown here for the changes that schemas undergo.
-/
import ApiSchema.Proofs.DistinctKeys
import ApiSchema.Proofs.TextKeys
import Mathlib.Data.List.Forall2
import Mathlib.Data.List.Nodup
import Mathlib.Data.List.Perm.Basic
import Mathlib.Data.List.Zip

namespace ApiSchema

/-- The values are equal up to the order of the entries of mappings, at any depth. -/
inductive Reordered : Value → Value → Prop
  /-- A scalar is itself. -/
  | scalar (s : Scalar) : Reordered (.scalar s) (.scalar s)
  /-- Arrays have the same number of items, and items at the same place are reordered. -/
  | array (kind : ArrayKind) {vs ws : List Value} (length_eq : vs.length = ws.length)
      (items : ∀ p ∈ vs.zip ws, Reordered p.1 p.2) : Reordered (.array kind vs) (.array kind ws)
  /-- Mappings have the same keys, in any order, and values under the same key are reordered. -/
  | mapping {es fs : Entries} (keys_perm : (Entries.keys es).Perm (Entries.keys fs))
      (values : ∀ key v w, (key, v) ∈ es → (key, w) ∈ fs → Reordered v w) :
      Reordered (.mapping es) (.mapping fs)

theorem Reordered.symm {v w : Value} (h : Reordered v w) : Reordered w v := by
  induction h with
  | scalar s => exact .scalar s
  | @array kind vs ws length_eq _ ih =>
    refine .array kind length_eq.symm fun p hp => ih p.swap ?_
    rw [← List.zip_swap] at hp
    obtain ⟨q, hq, rfl⟩ := List.mem_map.mp hp
    exact hq
  | mapping keys_perm _ ih =>
    exact .mapping keys_perm.symm fun key v w hv hw => ih key w v hw hv

/-- In lists of one length every item has a counterpart. -/
theorem exists_mem_zip {vs ws : List Value} {w : Value} (h : vs.length = ws.length) (hw : w ∈ ws) :
    ∃ v ∈ vs, (v, w) ∈ vs.zip ws := by
  rw [← List.map_snd_zip (Nat.le_of_eq h.symm)] at hw
  obtain ⟨⟨v, w⟩, hp, rfl⟩ := List.mem_map.mp hw
  exact ⟨v, (List.of_mem_zip hp).1, hp⟩

theorem Entries.exists_mem_of_keys_perm {es fs : Entries} (h : (keys es).Perm (keys fs))
    {e : Scalar × Value} (he : e ∈ fs) : ∃ v, (e.1, v) ∈ es := by
  obtain ⟨⟨_, v⟩, hv, rfl⟩ := List.mem_map.mp (h.mem_iff.mpr (List.mem_map_of_mem he))
  exact ⟨v, hv⟩

theorem Reordered.array_of_forall₂ {kind : ArrayKind} {vs ws : List Value}
    (h : List.Forall₂ Reordered vs ws) : Reordered (.array kind vs) (.array kind ws) := by
  obtain ⟨hlength, hzip⟩ := List.forall₂_iff_zip.mp h
  exact .array kind hlength fun p hp => hzip hp

/-- A single entry. -/
theorem Reordered.single {v w : Value} (key : Scalar) (h : Reordered v w) :
    Reordered (.mapping [(key, v)]) (.mapping [(key, w)]) := by
  refine .mapping (.refl _) fun _ x y hx hy => ?_
  obtain ⟨rfl, rfl⟩ := Prod.mk.inj (List.mem_singleton.mp hx)
  obtain ⟨-, rfl⟩ := Prod.mk.inj (List.mem_singleton.mp hy)
  exact h

/-- Two entries that change places. -/
theorem Reordered.swap {v v' w w' : Value} (key other : Scalar) (hne : key ≠ other)
    (hv : Reordered v v') (hw : Reordered w w') :
    Reordered (.mapping [(key, v), (other, w)]) (.mapping [(other, w'), (key, v')]) := by
  refine .mapping (.swap _ _ _) fun k x y hx hy => ?_
  simp only [List.mem_cons, Prod.mk.injEq, List.not_mem_nil, or_false] at hx hy
  rcases hx with ⟨rfl, rfl⟩ | ⟨rfl, rfl⟩
  · rcases hy with ⟨hk, -⟩ | ⟨-, rfl⟩
    · exact absurd hk hne
    · exact hv
  · rcases hy with ⟨-, rfl⟩ | ⟨hk, -⟩
    · exact hw
    · exact absurd hk.symm hne

/-! ### Keys that are distinct texts -/

namespace Entries

variable {es : Entries} {name other : String} {v : Value}

/-- The keys are texts, and none stands twice. -/
structure Named (es : Entries) : Prop where
  texts : ∀ k ∈ keys es, k.isText = true
  nodup : (keys es).Nodup

theorem get?_eq_none_iff : get? es name = none ↔ .str name ∉ keys es := by
  induction es with
  | nil => simp [keys]
  | cons e es ih =>
    obtain ⟨k, v⟩ := e
    rw [get?_cons]
    by_cases hk : k = .str name
    · simp [hk, keys]
    · rw [if_neg hk, ih]
      simp [keys, Ne.symm hk]

namespace Named

theorem distinct (h : Named es) : Distinct es := by
  have hne : es.Pairwise fun a b => a.1 ≠ b.1 := List.pairwise_map.mp h.nodup
  refine hne.imp_of_mem fun {a b} _ hb hab => ?_
  rw [Scalar.eq_str_name (h.texts b.1 (List.mem_map_of_mem hb))] at hab ⊢
  exact Bool.eq_false_iff.mpr (mt Scalar.same_str.mp hab)

theorem get?_eq_some_iff (h : Named es) : get? es name = some v ↔ (.str name, v) ∈ es :=
  ⟨mem_of_get?, h.distinct.get?_of_mem⟩

/-- Every entry is what stands under the name of its key. -/
theorem exists_get?_of_mem (h : Named es) {e : Scalar × Value} (he : e ∈ es) :
    ∃ name, e.1 = .str name ∧ get? es name = some e.2 := by
  have hkey := Scalar.eq_str_name (h.texts e.1 (List.mem_map_of_mem he))
  exact ⟨e.1.name, hkey, h.get?_eq_some_iff.mpr (hkey ▸ he)⟩

theorem of_distinct (htexts : ∀ k ∈ keys es, k.isText = true) (h : Distinct es) : Named es where
  texts := htexts
  nodup := List.pairwise_map.mpr (h.imp fun {a b} hab heq => by simp [heq] at hab)

theorem insert (h : Named es) {key : Scalar} (hkey : key.isText = true) :
    Named (insert es key v) := by
  refine of_distinct (fun k hk => ?_) h.distinct.insert
  obtain ⟨e, he, rfl⟩ := List.mem_map.mp hk
  rcases mem_insert he with he | ⟨-, rfl | hk⟩
  · exact h.texts _ (List.mem_map_of_mem he)
  · exact hkey
  · exact h.texts _ hk

theorem set (h : Named es) : Named (set es name v) := insert_str ▸ h.insert rfl

theorem ofPairs {pairs : List (Scalar × Value)} (h : ∀ p ∈ pairs, p.1.isText = true) :
    Named (ofPairs pairs) :=
  ofPairs_induction ⟨by simp [keys], .nil⟩ fun _ hes p hp => hes.insert (h p hp)

theorem erase (h : Named es) : Named (erase es name) where
  texts k hk := h.texts k ((List.filter_sublist.map _).subset hk)
  nodup := h.nodup.sublist (List.filter_sublist.map _)

theorem cons (h : Named es) (hname : get? es name = none) : Named ((.str name, v) :: es) where
  texts := List.forall_mem_cons.mpr ⟨rfl, h.texts⟩
  nodup := List.nodup_cons.mpr ⟨get?_eq_none_iff.mp hname, h.nodup⟩

/-- Being named is a matter of the keys. -/
theorem of_keys {fs : Entries} (h : Named es) (hkeys : keys fs = keys es) : Named fs where
  texts := hkeys ▸ h.texts
  nodup := hkeys ▸ h.nodup

theorem of_perm {fs : Entries} (h : Named es) (hkeys : (keys es).Perm (keys fs)) : Named fs where
  texts k hk := h.texts k (hkeys.mem_iff.mpr hk)
  nodup := hkeys.nodup_iff.mp h.nodup

end Named

end Entries

/-- In every mapping of the value the keys are texts, and none stands twice. -/
structure WellKeyed (v : Value) : Prop where
  texts : v.textKeys = true
  distinct : DistinctKeys v

theorem wellKeyed_scalar (s : Scalar) : WellKeyed (.scalar s) := ⟨rfl, .scalar s⟩

theorem wellKeyed_array_iff {kind : ArrayKind} {vs : List Value} :
    WellKeyed (.array kind vs) ↔ ∀ v ∈ vs, WellKeyed v := by
  constructor
  · rintro ⟨htexts, hdistinct⟩ v hv
    exact ⟨Value.hereditary_textKeys.item kind vs htexts v hv,
      DistinctKeys.hereditary.item kind vs hdistinct v hv⟩
  · intro h
    exact ⟨Value.itemsTextKeys_iff.mpr fun v hv => (h v hv).texts,
      .array kind fun v hv => (h v hv).distinct⟩

theorem wellKeyed_mapping_iff {es : Entries} :
    WellKeyed (.mapping es) ↔ Entries.Named es ∧ ∀ e ∈ es, WellKeyed e.2 := by
  constructor
  · rintro ⟨htexts, hdistinct⟩
    refine ⟨.of_distinct (fun k hk => ?_) hdistinct.distinct, fun e he => ⟨?_, ?_⟩⟩
    · obtain ⟨e, he, rfl⟩ := List.mem_map.mp hk
      exact (Value.textKeys_mapping_iff.mp htexts e he).1
    · exact Value.hereditary_textKeys.entry es htexts e he
    · exact DistinctKeys.hereditary.entry es hdistinct e he
  · rintro ⟨hnamed, hvalues⟩
    refine ⟨Value.textKeys_mapping_iff.mpr fun e he => ⟨?_, (hvalues e he).texts⟩,
      .mapping hnamed.distinct fun e he => (hvalues e he).distinct⟩
    exact hnamed.texts e.1 (List.mem_map_of_mem he)

theorem Reordered.wellKeyed {v w : Value} (h : Reordered v w) (hv : WellKeyed v) :
    WellKeyed w := by
  induction h with
  | scalar s => exact hv
  | @array kind vs ws length_eq _ ih =>
    refine wellKeyed_array_iff.mpr fun w hw => ?_
    obtain ⟨v, hmem, hvw⟩ := exists_mem_zip length_eq hw
    exact ih _ hvw (wellKeyed_array_iff.mp hv v hmem)
  | @mapping es fs keys_perm _ ih =>
    obtain ⟨hes, hvalues⟩ := wellKeyed_mapping_iff.mp hv
    refine wellKeyed_mapping_iff.mpr ⟨hes.of_perm keys_perm, fun e he => ?_⟩
    obtain ⟨v, hmem⟩ := Entries.exists_mem_of_keys_perm keys_perm he
    exact ih _ v e.2 hmem he (hvalues _ hmem)

/-! ### Values that are alike -/

section Rel

variable {α : Type} {R : α → α → Prop} {x y : Option α} {a : α}

theorem exists_of_rel_some (h : Option.Rel R x y) (hx : x = some a) : ∃ b, y = some b ∧ R a b := by
  subst hx
  cases h with
  | some h => exact ⟨_, rfl, h⟩

theorem rel_cases (h : Option.Rel R x y) :
    (x = none ∧ y = none) ∨ ∃ a b, x = some a ∧ y = some b ∧ R a b := by
  cases h with
  | none => exact .inl ⟨rfl, rfl⟩
  | some h => exact .inr ⟨_, _, rfl, rfl, h⟩

theorem rel_symm (hR : ∀ {a b}, R a b → R b a) (h : Option.Rel R x y) : Option.Rel R y x := by
  cases h with
  | none => exact .none
  | some h => exact .some (hR h)

end Rel

/-- The values are reordered, and their keys are distinct texts. -/
structure Alike (v w : Value) : Prop where
  reordered : Reordered v w
  left : WellKeyed v
  right : WellKeyed w

namespace Alike

variable {es fs : Entries} {v w : Value} {name : String}

theorem of_reordered (h : Reordered v w) (hv : WellKeyed v) : Alike v w := ⟨h, hv, h.wellKeyed hv⟩

theorem symm (h : Alike v w) : Alike w v := ⟨h.reordered.symm, h.right, h.left⟩

theorem scalar (s : Scalar) : Alike (.scalar s) (.scalar s) :=
  ⟨.scalar s, wellKeyed_scalar s, wellKeyed_scalar s⟩

theorem array_iff {kind kind' : ArrayKind} {vs ws : List Value} :
    Alike (.array kind vs) (.array kind' ws) ↔ kind = kind' ∧ List.Forall₂ Alike vs ws := by
  constructor
  · rintro ⟨hreordered, hleft, hright⟩
    cases hreordered with
    | array _ length_eq items =>
      refine ⟨rfl, List.forall₂_iff_zip.mpr ⟨length_eq, fun {a b} hab => ⟨items _ hab, ?_, ?_⟩⟩⟩
      · exact wellKeyed_array_iff.mp hleft a (List.of_mem_zip hab).1
      · exact wellKeyed_array_iff.mp hright b (List.of_mem_zip hab).2
  · rintro ⟨rfl, hitems⟩
    have hsides : (∀ v ∈ vs, WellKeyed v) ∧ ∀ w ∈ ws, WellKeyed w := by
      induction hitems with
      | nil => simp
      | cons h _ ih =>
        exact ⟨List.forall_mem_cons.mpr ⟨h.left, ih.1⟩, List.forall_mem_cons.mpr ⟨h.right, ih.2⟩⟩
    obtain ⟨hlength, hzip⟩ := List.forall₂_iff_zip.mp hitems
    exact ⟨.array kind hlength fun p hp => (hzip hp).reordered, wellKeyed_array_iff.mpr hsides.1,
      wellKeyed_array_iff.mpr hsides.2⟩

/-- **Mappings are alike if they answer alike under every name.** -/
theorem mapping_iff : Alike (.mapping es) (.mapping fs) ↔
    Entries.Named es ∧ Entries.Named fs ∧
      ∀ name, Option.Rel Alike (Entries.get? es name) (Entries.get? fs name) := by
  constructor
  · rintro ⟨hreordered, hleft, hright⟩
    obtain ⟨hes, hesvalues⟩ := wellKeyed_mapping_iff.mp hleft
    obtain ⟨hfs, hfsvalues⟩ := wellKeyed_mapping_iff.mp hright
    refine ⟨hes, hfs, fun name => ?_⟩
    cases hreordered with
    | mapping keys_perm values =>
      cases hv : Entries.get? es name with
      | none =>
        rw [Entries.get?_eq_none_iff, keys_perm.mem_iff, ← Entries.get?_eq_none_iff] at hv
        rw [hv]
        exact .none
      | some v =>
        have hmem := hes.get?_eq_some_iff.mp hv
        have hkey : .str name ∈ Entries.keys fs := keys_perm.mem_iff.mp (List.mem_map_of_mem hmem)
        obtain ⟨⟨_, w⟩, hw, rfl⟩ := List.mem_map.mp hkey
        rw [hfs.get?_eq_some_iff.mpr hw]
        exact .some ⟨values _ v w hmem hw, hesvalues _ hmem, hfsvalues _ hw⟩
  · rintro ⟨hes, hfs, hlookup⟩
    -- What is said of the one side holds of the other, because answering alike is symmetric.
    have half {es fs : Entries} (hes : Entries.Named es)
        (hlookup : ∀ name, Option.Rel Alike (Entries.get? es name) (Entries.get? fs name)) :
        WellKeyed (.mapping es) ∧ Entries.keys es ⊆ Entries.keys fs := by
      refine ⟨wellKeyed_mapping_iff.mpr ⟨hes, fun e he => ?_⟩, fun k hk => ?_⟩
      · obtain ⟨name, -, hv⟩ := hes.exists_get?_of_mem he
        obtain ⟨w, -, hw⟩ := exists_of_rel_some (hlookup name) hv
        exact hw.left
      · obtain ⟨e, he, rfl⟩ := List.mem_map.mp hk
        obtain ⟨name, hname, hv⟩ := hes.exists_get?_of_mem he
        obtain ⟨w, hw, -⟩ := exists_of_rel_some (hlookup name) hv
        rw [hname]
        exact List.mem_map_of_mem (Entries.mem_of_get? hw)
    obtain ⟨hleft, hsub⟩ := half hes hlookup
    obtain ⟨hright, hsup⟩ := half hfs fun name => rel_symm symm (hlookup name)
    refine ⟨.mapping ?_ fun key v w hv hw => ?_, hleft, hright⟩
    · exact (List.perm_ext_iff_of_nodup hes.nodup hfs.nodup).mpr fun k => ⟨@hsub k, @hsup k⟩
    · obtain ⟨name, hname, hget⟩ := hes.exists_get?_of_mem hv
      obtain rfl : key = .str name := hname
      obtain ⟨w', hw', halike⟩ := exists_of_rel_some (hlookup name) hget
      rw [hfs.get?_eq_some_iff.mpr hw] at hw'
      obtain rfl := Option.some.inj hw'
      exact halike.reordered

/-! ### Changes by name -/

theorem lookup (h : Alike (.mapping es) (.mapping fs)) (name : String) :
    Option.Rel Alike (Entries.get? es name) (Entries.get? fs name) :=
  (mapping_iff.mp h).2.2 name

theorem set (h : Alike (.mapping es) (.mapping fs)) (hvw : Alike v w) :
    Alike (.mapping (Entries.set es name v)) (.mapping (Entries.set fs name w)) := by
  obtain ⟨hes, hfs, hlookup⟩ := mapping_iff.mp h
  refine mapping_iff.mpr ⟨hes.set, hfs.set, fun other => ?_⟩
  by_cases hother : other = name
  · rw [hother, Entries.get?_set_self, Entries.get?_set_self]
    exact .some hvw
  · rw [Entries.get?_set_of_ne hother, Entries.get?_set_of_ne hother]
    exact hlookup other

theorem erase (h : Alike (.mapping es) (.mapping fs)) :
    Alike (.mapping (Entries.erase es name)) (.mapping (Entries.erase fs name)) := by
  obtain ⟨hes, hfs, hlookup⟩ := mapping_iff.mp h
  refine mapping_iff.mpr ⟨hes.erase, hfs.erase, fun other => ?_⟩
  by_cases hother : other = name
  · rw [hother, Entries.get?_erase_self, Entries.get?_erase_self]
    exact .none
  · rw [Entries.get?_erase_of_ne hother, Entries.get?_erase_of_ne hother]
    exact hlookup other

/-- A new entry in front of both. -/
theorem cons (h : Alike (.mapping es) (.mapping fs)) (hvw : Alike v w)
    (hes : Entries.get? es name = none) (hfs : Entries.get? fs name = none) :
    Alike (.mapping ((.str name, v) :: es)) (.mapping ((.str name, w) :: fs)) := by
  obtain ⟨hesnamed, hfsnamed, hlookup⟩ := mapping_iff.mp h
  refine mapping_iff.mpr ⟨hesnamed.cons hes, hfsnamed.cons hfs, fun other => ?_⟩
  rw [Entries.get?_cons, Entries.get?_cons]
  split
  · exact .some hvw
  · exact hlookup other

/-! ### What is the same in both -/

theorem isMapping_eq (h : Alike v w) : w.isMapping = v.isMapping := by
  obtain ⟨hreordered, -, -⟩ := h
  cases hreordered <;> rfl

/-- What is alike to a mapping is one. -/
theorem exists_entries (h : Alike (.mapping es) w) : ∃ fs, w = .mapping fs := by
  have hw := h.isMapping_eq
  cases w with
  | mapping fs => exact ⟨fs, rfl⟩
  | _ => simp [Value.isMapping] at hw

theorem text?_eq (h : Alike v w) : w.text? = v.text? := by
  obtain ⟨hreordered, -, -⟩ := h
  cases hreordered <;> rfl

theorem isTruthy_eq (h : Alike v w) : w.isTruthy = v.isTruthy := by
  have hempty {α : Type} {l m : List α} (hlength : l.length = m.length) :
      (!m.isEmpty) = !l.isEmpty := by
    cases l <;> cases m <;> simp at hlength ⊢
  obtain ⟨hreordered, -, -⟩ := h
  cases hreordered with
  | scalar s => rfl
  | array _ length_eq _ => exact hempty length_eq
  | mapping keys_perm _ => exact hempty (by simpa [Entries.keys] using keys_perm.length_eq)

theorem textUnder_eq (h : Alike (.mapping es) (.mapping fs)) (name : String) :
    (Entries.get? fs name).bind Value.text? = (Entries.get? es name).bind Value.text? := by
  rcases rel_cases (h.lookup name) with ⟨hv, hw⟩ | ⟨v, w, hv, hw, hvw⟩
  · rw [hv, hw]
  · rw [hv, hw]
    exact hvw.text?_eq

theorem ref?_eq (h : Alike (.mapping es) (.mapping fs)) : Entries.ref? fs = Entries.ref? es :=
  h.textUnder_eq Keyword.ref

end Alike

end ApiSchema
