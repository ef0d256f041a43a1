/-
Pointers that are written and read again.

An encoded segment has no slash, so the pieces of a pointer are the segments that
were written, and decoding undoes encoding.  Decoding makes two passes, and so does
the proof: the first pass leaves the tildes of the name as they were encoded, and
since they are followed by a zero, it finds no slash in them.
-/
import ApiSchema.Pointer

namespace ApiSchema

/-! ### Pieces -/

namespace Text

variable {separator : Char} {cs ds : List Char}

theorem pieces_of_not_mem (h : separator ∉ cs) : pieces separator cs = [cs] := by
  induction cs with
  | nil => rfl
  | cons c cs ih =>
    obtain ⟨hc, hcs⟩ := not_or.mp (mt List.mem_cons.mpr h)
    rw [pieces, if_neg (Ne.symm hc), ih hcs]

theorem pieces_append_separator (h : separator ∉ cs) :
    pieces separator (cs ++ separator :: ds) = cs :: pieces separator ds := by
  induction cs with
  | nil => rw [List.nil_append, pieces, if_pos rfl]
  | cons c cs ih =>
    obtain ⟨hc, hcs⟩ := not_or.mp (mt List.mem_cons.mpr h)
    rw [List.cons_append, pieces, if_neg (Ne.symm hc), ih hcs]

end Text

/-! ### Segments -/

namespace Pointer

variable {digit c d : Char} {cs rest : List Char}

theorem unescapeWith_escape : unescapeWith digit c ('~' :: digit :: rest) =
    c :: unescapeWith digit c rest := by
  rw [unescapeWith, if_pos rfl]

theorem unescapeWith_tilde_of_ne (h : d ≠ digit) : unescapeWith digit c ('~' :: d :: rest) =
    '~' :: unescapeWith digit c (d :: rest) := by
  rw [unescapeWith, if_neg h]

theorem unescapeWith_cons_of_ne (h : d ≠ '~') :
    unescapeWith digit c (d :: rest) = d :: unescapeWith digit c rest := by
  rw [unescapeWith]
  rintro d' rest' rfl
  exact absurd rfl h

theorem encode_cons (c : Char) (cs : List Char) : encode (c :: cs) = escapedChar c ++ encode cs :=
  List.flatMap_cons

theorem slash_not_mem_encode (cs : List Char) : '/' ∉ encode cs := by
  intro h
  obtain ⟨c, -, hc⟩ := List.mem_flatMap.mp h
  rw [escapedChar] at hc
  split at hc
  · simp at hc
  · split at hc
    · simp at hc
    · next hslash => exact hslash (List.mem_singleton.mp hc).symm

/-- A name whose tildes are encoded and whose slashes are not. -/
def encodeTildes (cs : List Char) : List Char :=
  cs.flatMap fun c => if c = '~' then ['~', '0'] else [c]

theorem encodeTildes_cons (c : Char) (cs : List Char) :
    encodeTildes (c :: cs) = (if c = '~' then ['~', '0'] else [c]) ++ encodeTildes cs :=
  List.flatMap_cons

theorem unescapeWith_encode (cs : List Char) :
    unescapeWith '1' '/' (encode cs) = encodeTildes cs := by
  induction cs with
  | nil => rfl
  | cons c cs ih =>
    rw [encode_cons, encodeTildes_cons, escapedChar]
    by_cases htilde : c = '~'
    · rw [if_pos htilde, if_pos htilde]
      show unescapeWith '1' '/' ('~' :: '0' :: encode cs) = '~' :: '0' :: encodeTildes cs
      rw [unescapeWith_tilde_of_ne (by decide), unescapeWith_cons_of_ne (by decide), ih]
    · rw [if_neg htilde, if_neg htilde]
      by_cases hslash : c = '/'
      · rw [if_pos hslash, hslash]
        show unescapeWith '1' '/' ('~' :: '1' :: encode cs) = '/' :: encodeTildes cs
        rw [unescapeWith_escape, ih]
      · rw [if_neg hslash]
        show unescapeWith '1' '/' (c :: encode cs) = c :: encodeTildes cs
        rw [unescapeWith_cons_of_ne htilde, ih]

theorem unescapeWith_encodeTildes (cs : List Char) :
    unescapeWith '0' '~' (encodeTildes cs) = cs := by
  induction cs with
  | nil => rfl
  | cons c cs ih =>
    rw [encodeTildes_cons]
    by_cases htilde : c = '~'
    · rw [if_pos htilde, htilde]
      show unescapeWith '0' '~' ('~' :: '0' :: encodeTildes cs) = '~' :: cs
      rw [unescapeWith_escape, ih]
    · rw [if_neg htilde]
      show unescapeWith '0' '~' (c :: encodeTildes cs) = c :: cs
      rw [unescapeWith_cons_of_ne htilde, ih]

/-- Decoding undoes encoding, whatever the name is. -/
theorem decode_encode (cs : List Char) : decode (encode cs) = cs := by
  rw [decode, unescapeWith_encode, unescapeWith_encodeTildes]

end Pointer

end ApiSchema
