/-
Pointers whose segments are written as they are.

`join` puts slashes between names and encodes nothing.  What it writes is read with
every name cut at its slashes and decoded once more, so the names come back exactly if
none of them has a slash or an escape.

That nothing else comes back is a matter of lengths.  A name gives at least one
segment, so as many segments as names means one segment each; and decoding takes a
character away for every escape, so a name that keeps its length has none.
-/
import ApiSchema.Proofs.Pointer.Canonical

namespace ApiSchema

/-! ### Pieces of joined texts -/

/-- What is joined with a separator is cut as its parts are. -/
theorem Text.pieces_intercalate {separator : Char} {parts : List (List Char)} (h : parts ≠ []) :
    pieces separator ([separator].intercalate parts) = parts.flatMap (pieces separator) := by
  induction parts with
  | nil => exact absurd rfl h
  | cons first rest ih =>
    cases rest with
    | nil => simp
    | cons second rest =>
      rw [List.intercalate_cons_cons, List.append_assoc, List.singleton_append, pieces_append,
        ih (List.cons_ne_nil _ _)]
      exact List.flatMap_cons.symm

/-- If every member gives way to a list that is not empty and nothing changes, every member stays
where it is. -/
theorem eq_singleton_of_flatMap_eq {α : Type} {f : α → List α} {l : List α}
    (hf : ∀ a, f a ≠ []) (h : l.flatMap f = l) : ∀ a ∈ l, f a = [a] := by
  have hgrows (l : List α) : l.length ≤ (l.flatMap f).length := by
    induction l with
    | nil => exact Nat.le_refl _
    | cons a l ih =>
      have hpos := List.length_pos_iff.mpr (hf a)
      rw [List.flatMap_cons, List.length_append, List.length_cons]
      omega
  induction l with
  | nil => simp
  | cons first rest ih =>
    replace h : f first ++ rest.flatMap f = [first] ++ rest := h
    have hpos := List.length_pos_iff.mpr (hf first)
    have hlength := congrArg List.length h
    rw [List.length_append, List.length_append, List.length_singleton] at hlength
    have hrest := hgrows rest
    have hone : (f first).length = [first].length := by
      rw [List.length_singleton]
      omega
    obtain ⟨hfirst, hback⟩ := List.append_inj h hone
    intro a ha
    rcases List.mem_cons.mp ha with rfl | ha
    · exact hfirst
    · exact ih hback a ha

namespace Pointer

variable {digit c : Char} {cs : List Char} {name : String} {names : List String}

/-! ### Names that decoding leaves alone -/

theorem length_unescapeWith_le (digit c : Char) (cs : List Char) :
    (unescapeWith digit c cs).length ≤ cs.length := by
  fun_induction unescapeWith digit c cs with
  | case1 rest ih => simp only [List.length_cons]; omega
  | case2 d rest hd ih => simpa only [List.length_cons, Nat.add_le_add_iff_right] using ih
  | case3 d rest hd ih => simpa only [List.length_cons, Nat.add_le_add_iff_right] using ih
  | case4 => exact Nat.le_refl _

/-- A pass that takes no character away finds nothing to replace. -/
theorem isChain_of_length_unescapeWith (h : (unescapeWith digit c cs).length = cs.length) :
    cs.IsChain fun a b => a = '~' → b ≠ digit := by
  fun_induction unescapeWith digit c cs with
  | case1 rest ih =>
    have hle := length_unescapeWith_le digit c rest
    simp only [List.length_cons] at h
    omega
  | case2 d rest hd ih =>
    simp only [List.length_cons, Nat.add_right_cancel_iff] at h
    exact List.isChain_cons_cons.mpr ⟨fun _ => hd, ih (by simpa using h)⟩
  | case3 d rest hother ih =>
    simp only [List.length_cons, Nat.add_right_cancel_iff] at h
    refine List.isChain_cons.mpr ⟨fun b hb hd => ?_, ih h⟩
    obtain ⟨after, rfl⟩ := List.head?_eq_some_iff.mp hb
    exact absurd rfl (hother b after hd)
  | case4 => exact .nil

theorem unescapeWith_of_isChain (h : cs.IsChain fun a b => a = '~' → b ≠ digit) :
    unescapeWith digit c cs = cs := by
  fun_induction unescapeWith digit c cs with
  | case1 rest ih => exact absurd rfl ((List.isChain_cons_cons.mp h).1 rfl)
  | case2 d rest hd ih => rw [ih (List.isChain_cons_cons.mp h).2]
  | case3 d rest hother ih => rw [ih (List.isChain_cons.mp h).2]
  | case4 => rfl

/-- No tilde of the name has a zero or a one behind it. -/
def Unescaped (cs : List Char) : Prop :=
  (cs.IsChain fun a b => a = '~' → b ≠ '1') ∧ cs.IsChain fun a b => a = '~' → b ≠ '0'

instance : DecidablePred Unescaped := fun _ => inferInstanceAs (Decidable (_ ∧ _))

theorem decode_eq_self_iff : decode cs = cs ↔ Unescaped cs := by
  constructor
  · intro h
    have hfirst := length_unescapeWith_le '1' '/' cs
    have hsecond := length_unescapeWith_le '0' '~' (unescapeWith '1' '/' cs)
    have hlength : (unescapeWith '0' '~' (unescapeWith '1' '/' cs)).length = cs.length :=
      congrArg List.length h
    have hslashes : cs.IsChain fun a b => a = '~' → b ≠ '1' :=
      isChain_of_length_unescapeWith (c := '/') (by omega)
    rw [unescapeWith_of_isChain hslashes] at hlength
    exact ⟨hslashes, isChain_of_length_unescapeWith hlength⟩
  · rintro ⟨hslashes, htildes⟩
    rw [decode, unescapeWith_of_isChain hslashes, unescapeWith_of_isChain htildes]

/-! ### Reading what is joined -/

/-- The segments that a name gives if it is written as it is. -/
def reread (name : String) : List String :=
  (Text.pieces '/' name.toList).map fun piece => String.ofList (decode piece)

/-- The name has neither slashes nor escapes. -/
def Unmarked (name : String) : Prop := '/' ∉ name.toList ∧ Unescaped name.toList

instance : DecidablePred Unmarked := fun _ => inferInstanceAs (Decidable (_ ∧ _))

theorem parse?_join (h : names ≠ []) :
    parse? (join names) = some ⟨join names, names.flatMap reread⟩ := by
  refine parse?_eq_some_iff.mpr ⟨_, toList_join names, ?_⟩
  rw [Text.pieces_intercalate (by simpa using h), List.map_flatMap, List.flatMap_map]
  rfl

theorem reread_eq_iff : reread name = [name] ↔ Unmarked name := by
  rw [Unmarked, ← decode_eq_self_iff]
  constructor
  · intro h
    have hslash : '/' ∉ name.toList := by
      have hlength := congrArg List.length h
      rw [reread, List.length_map, Text.length_pieces, List.length_singleton] at hlength
      exact List.count_eq_zero.mp (by omega)
    rw [reread, Text.pieces_of_not_mem hslash, List.map_singleton, List.singleton_inj] at h
    refine ⟨hslash, ?_⟩
    rw [← String.toList_ofList (l := decode name.toList), h]
  · rintro ⟨hslash, hdecode⟩
    rw [reread, Text.pieces_of_not_mem hslash, List.map_singleton, hdecode, String.ofList_toList]

/-- **What is joined is read as the names** exactly if no name has a slash or an escape. -/
theorem flatMap_reread_eq_iff : names.flatMap reread = names ↔ ∀ name ∈ names, Unmarked name := by
  have hne (name : String) : reread name ≠ [] := by
    rw [reread, Ne, List.map_eq_nil_iff]
    exact Text.pieces_ne_nil '/' name.toList
  constructor
  · intro h name hname
    exact reread_eq_iff.mp (eq_singleton_of_flatMap_eq hne h name hname)
  · intro h
    have hsingle : names.flatMap reread = names.flatMap fun name => [name] :=
      List.flatMap_congr fun name hname => reread_eq_iff.mpr (h name hname)
    rw [hsingle, List.flatMap_singleton']

end Pointer

end ApiSchema
