/-
Canonical pointers.

A place has many spellings, because a tilde that starts no escape stands for itself.
The spelling that `write` gives is the one in which every tilde starts an escape, and
among such texts reading and writing are inverse to each other.

Cutting a text at slashes and joining its pieces are inverse as well, if no piece has
a slash.  So it all comes down to a single segment.  There the two passes of decoding
are two steps over one escape: the first pass leaves `~0` as it is and puts a slash
for `~1`, and the second one never sees a tilde that the first one has written.
-/
import ApiSchema.Proofs.Pointer
import Mathlib.Data.List.Chain

namespace ApiSchema

/-! ### Pieces -/

namespace Text

variable {separator : Char} {cs ds piece : List Char}

/-- Cutting a text at a separator is splitting a list. -/
theorem pieces_eq_splitOn (separator : Char) (cs : List Char) :
    pieces separator cs = cs.splitOn separator := by
  induction cs with
  | nil => rfl
  | cons c cs ih =>
    rw [pieces, ih, List.splitOn, List.splitOn, List.splitOnP_cons_eq_if_modifyHead]
    simp only [beq_iff_eq]
    split
    · rfl
    · cases hsplit : cs.splitOnP (· == separator) with
      | nil => exact absurd hsplit (List.splitOnP_ne_nil _ _)
      | cons piece rest => rfl

/-- A text is cut at each of its separators, so it may be cut in two first. -/
theorem pieces_append (cs ds : List Char) :
    pieces separator (cs ++ separator :: ds) = pieces separator cs ++ pieces separator ds := by
  simp only [pieces_eq_splitOn, List.splitOn]
  exact List.splitOnP_append_cons cs ds (by simp)

theorem intercalate_pieces (separator : Char) (cs : List Char) :
    [separator].intercalate (pieces separator cs) = cs := by
  rw [pieces_eq_splitOn, List.intercalate_splitOn]

theorem separator_not_mem_piece (h : piece ∈ pieces separator cs) : separator ∉ piece := by
  induction cs generalizing piece with
  | nil =>
    obtain rfl := List.mem_singleton.mp h
    exact List.not_mem_nil
  | cons c cs ih =>
    rw [pieces] at h
    split at h
    · rcases List.mem_cons.mp h with rfl | hrest
      · exact List.not_mem_nil
      · exact ih hrest
    · next hc =>
      cases hpieces : pieces separator cs with
      | nil => exact absurd hpieces (pieces_ne_nil separator cs)
      | cons first rest =>
        rw [hpieces] at h ih
        rcases List.mem_cons.mp h with rfl | hrest
        · rw [List.mem_cons, not_or]
          exact ⟨Ne.symm hc, ih List.mem_cons_self⟩
        · exact ih (List.mem_cons_of_mem _ hrest)

end Text

namespace Pointer

variable {c d : Char} {cs ds rest : List Char} {text other : String} {segments : List String}
  {p q : Pointer}

/-! ### One step of decoding -/

theorem decode_cons_of_ne (hc : c ≠ '~') : decode (c :: rest) = c :: decode rest := by
  rw [decode, unescapeWith_cons_of_ne hc, unescapeWith_cons_of_ne hc, decode]

theorem decode_zero : decode ('~' :: '0' :: rest) = '~' :: decode rest := by
  rw [decode, unescapeWith_tilde_of_ne (by decide), unescapeWith_cons_of_ne (d := '0') (by decide),
    unescapeWith_escape, decode]

theorem decode_one : decode ('~' :: '1' :: rest) = '/' :: decode rest := by
  rw [decode, unescapeWith_escape, unescapeWith_cons_of_ne (by decide), decode]

/-! ### The passes of encoding -/

/-- A name in which every slash is encoded and nothing else. -/
def encodeSlashes (cs : List Char) : List Char :=
  cs.flatMap fun c => if c = '/' then ['~', '1'] else [c]

/-- Encoding is two passes.  The tildes come first, so that the second pass adds none that would
have to be encoded. -/
theorem encode_eq_passes (cs : List Char) : encode cs = encodeSlashes (encodeTildes cs) := by
  rw [encodeSlashes, encodeTildes, List.flatMap_assoc, encode]
  congr 1
  funext c
  rw [escapedChar]
  split
  · rfl
  · rw [List.flatMap_singleton]

/-! ### Texts in which every tilde starts an escape -/

/-- Every tilde has a zero or a one behind it. -/
def Escaped (cs : List Char) : Prop :=
  (cs.IsChain fun c d => c = '~' → d = '0' ∨ d = '1') ∧ cs.getLast? ≠ some '~'

instance : DecidablePred Escaped := fun _ => inferInstanceAs (Decidable (_ ∧ _))

theorem escaped_nil : Escaped [] := by decide

theorem escaped_cons_of_ne (hc : c ≠ '~') : Escaped (c :: cs) ↔ Escaped cs := by
  rw [Escaped, Escaped, List.isChain_cons]
  cases cs with
  | nil => simp [hc]
  | cons d cs => simp [hc]

theorem escaped_tilde_iff : Escaped ('~' :: cs) ↔
    ∃ rest, (cs = '0' :: rest ∨ cs = '1' :: rest) ∧ Escaped rest := by
  cases cs with
  | nil => simp [Escaped]
  | cons d cs =>
    have hstep : Escaped ('~' :: d :: cs) ↔ (d = '0' ∨ d = '1') ∧ Escaped (d :: cs) := by
      simp [Escaped, and_assoc]
    rw [hstep]
    constructor
    · rintro ⟨rfl | rfl, hrest⟩
      · exact ⟨cs, .inl rfl, (escaped_cons_of_ne (by decide)).mp hrest⟩
      · exact ⟨cs, .inr rfl, (escaped_cons_of_ne (by decide)).mp hrest⟩
    · rintro ⟨rest, h | h, hrest⟩ <;> obtain ⟨rfl, rfl⟩ := List.cons.inj h
      · exact ⟨.inl rfl, (escaped_cons_of_ne (by decide)).mpr hrest⟩
      · exact ⟨.inr rfl, (escaped_cons_of_ne (by decide)).mpr hrest⟩

/-- A slash is no part of an escape, so a text may be cut at it. -/
theorem escaped_append_slash : Escaped (cs ++ '/' :: ds) ↔ Escaped cs ∧ Escaped ds := by
  have hds : Escaped ('/' :: ds) ↔ Escaped ds := escaped_cons_of_ne (by decide)
  rw [← hds]
  simp only [Escaped, List.isChain_append, List.getLast?_append, List.head?_cons]
  constructor
  · rintro ⟨⟨hcs, hds, hjoint⟩, hlast⟩
    refine ⟨⟨hcs, fun hend => ?_⟩, hds, ?_⟩
    · simpa using hjoint '~' hend
    · simpa [List.getLast?_cons] using hlast
  · rintro ⟨⟨hcs, hend⟩, hds, hlast⟩
    refine ⟨⟨hcs, hds, ?_⟩, ?_⟩
    · rintro x hx y - rfl
      exact absurd hx hend
    · simpa [List.getLast?_cons] using hlast

theorem escaped_intercalate {pieces : List (List Char)} :
    Escaped (['/'].intercalate pieces) ↔ ∀ piece ∈ pieces, Escaped piece := by
  induction pieces with
  | nil => simp [escaped_nil]
  | cons first rest ih =>
    cases rest with
    | nil => simp
    | cons second rest =>
      rw [List.intercalate_cons_cons, List.append_assoc, List.singleton_append,
        escaped_append_slash, ih, List.forall_mem_cons (a := first)]

theorem escaped_encode (cs : List Char) : Escaped (encode cs) := by
  induction cs with
  | nil => exact escaped_nil
  | cons c cs ih =>
    rw [encode_cons, escapedChar]
    split
    · exact escaped_tilde_iff.mpr ⟨encode cs, .inl rfl, ih⟩
    · next htilde =>
      split
      · exact escaped_tilde_iff.mpr ⟨encode cs, .inr rfl, ih⟩
      · exact (escaped_cons_of_ne htilde).mpr ih

/-- **Encoding undoes decoding** on a segment in which every tilde starts an escape. -/
theorem encode_decode {cs : List Char} (h : Escaped cs) (hslash : '/' ∉ cs) :
    encode (decode cs) = cs := by
  match cs with
  | [] => rfl
  | c :: cs =>
    obtain ⟨hc, hcs⟩ := not_or.mp (mt List.mem_cons.mpr hslash)
    by_cases htilde : c = '~'
    · obtain rfl := htilde
      -- The escape is one step of decoding, and encoding puts it back.
      obtain ⟨rest, rfl | rfl, hrest⟩ := escaped_tilde_iff.mp h
      · have ih := encode_decode hrest fun hmem => hcs (List.mem_cons_of_mem _ hmem)
        rw [decode_zero, encode_cons, ih]
        rfl
      · have ih := encode_decode hrest fun hmem => hcs (List.mem_cons_of_mem _ hmem)
        rw [decode_one, encode_cons, ih]
        rfl
    · have ih := encode_decode ((escaped_cons_of_ne htilde).mp h) hcs
      rw [decode_cons_of_ne htilde, encode_cons, ih, escapedChar, if_neg htilde,
        if_neg (Ne.symm hc)]
      rfl
termination_by cs.length

/-! ### Whole pointers -/

/-- A text is a pointer if it starts as one. -/
theorem exists_parse?_iff : (∃ p, parse? text = some p) ↔ localStart.toList <+: text.toList := by
  have hstart : localStart.toList = ['#', '/'] := rfl
  rw [hstart, parse?]
  constructor
  · rintro ⟨p, hp⟩
    split at hp
    · next body hbody => exact ⟨body, hbody.symm⟩
    · simp at hp
  · rintro ⟨body, hbody⟩
    rw [← hbody]
    exact ⟨_, rfl⟩

/-- What is read from a pointer. -/
theorem parse?_eq_some_iff : parse? text = some p ↔ ∃ body, text.toList = '#' :: '/' :: body ∧
    p = ⟨text, (Text.pieces '/' body).map fun piece => String.ofList (decode piece)⟩ := by
  rw [parse?]
  constructor
  · intro hp
    split at hp
    · next body hbody => exact ⟨body, hbody, (Option.some.inj hp).symm⟩
    · simp at hp
  · rintro ⟨body, hbody, rfl⟩
    rw [hbody]
    rfl

/-- The pointer with these segments, in its canonical spelling. -/
def write (segments : List String) : String := join (segments.map escape)

/-- A local pointer in which every tilde starts an escape. -/
def Canonical (text : String) : Prop := localStart.toList <+: text.toList ∧ Escaped text.toList

instance : DecidablePred Canonical := fun _ => inferInstanceAs (Decidable (_ ∧ _))

theorem toList_join (segments : List String) : (join segments).toList =
    '#' :: '/' :: ['/'].intercalate (segments.map String.toList) := by
  rw [join, String.toList_append, String.toList_intercalate]
  rfl

theorem toList_write (segments : List String) : (write segments).toList =
    '#' :: '/' :: ['/'].intercalate (segments.map fun s => encode s.toList) := by
  rw [write, toList_join, List.map_map]
  congr 4
  funext s
  exact String.toList_ofList

theorem escaped_hash_slash : Escaped ('#' :: '/' :: cs) ↔ Escaped cs := by
  rw [escaped_cons_of_ne (by decide), escaped_cons_of_ne (by decide)]

theorem canonical_write (segments : List String) : Canonical (write segments) := by
  rw [Canonical, toList_write]
  refine ⟨⟨_, rfl⟩, escaped_hash_slash.mpr (escaped_intercalate.mpr ?_)⟩
  intro piece hpiece
  obtain ⟨s, -, rfl⟩ := List.mem_map.mp hpiece
  exact escaped_encode s.toList

/-- What is written is read again. -/
theorem parse?_write (h : segments ≠ []) :
    parse? (write segments) = some ⟨write segments, segments⟩ := by
  refine parse?_eq_some_iff.mpr ⟨_, toList_write segments, ?_⟩
  have hpieces : Text.pieces '/' (['/'].intercalate (segments.map fun s => encode s.toList)) =
      segments.map fun s => encode s.toList := by
    rw [Text.pieces_eq_splitOn]
    refine List.splitOn_intercalate '/' ?_ (by simpa using h)
    intro piece hpiece
    obtain ⟨s, -, rfl⟩ := List.mem_map.mp hpiece
    exact slash_not_mem_encode s.toList
  rw [hpieces, List.map_map]
  simp [Function.comp_def, decode_encode]

/-- A canonical text is what is written for its segments. -/
theorem write_segments (h : Canonical text) (hp : parse? text = some p) :
    write p.segments = text := by
  obtain ⟨body, hbody, rfl⟩ := parse?_eq_some_iff.mp hp
  have hescaped : Escaped body := escaped_hash_slash.mp (hbody ▸ h.2)
  have hpieces : ∀ piece ∈ Text.pieces '/' body, encode (decode piece) = piece := by
    intro piece hpiece
    rw [← Text.intercalate_pieces '/' body, escaped_intercalate] at hescaped
    exact encode_decode (hescaped piece hpiece) (Text.separator_not_mem_piece hpiece)
  have hmap : (Text.pieces '/' body).map (fun piece => encode (decode piece)) =
      Text.pieces '/' body := by
    rw [List.map_congr_left hpieces, List.map_id']
  apply String.toList_injective
  rw [toList_write, hbody, List.map_map]
  simp only [Function.comp_def, String.toList_ofList, hmap, Text.intercalate_pieces]

/-- **Writing and reading pointers are inverse to each other.**  Any segments, empty
ones included, are read back from what is written for them, and a text in which
every tilde starts an escape is written again from what is read from it.  So no two
paths share a canonical spelling, and no path has two. -/
theorem write_inverse :
    (∀ key, (escape key).toList = encodeSlashes (encodeTildes key.toList)) ∧
    (∀ segments, segments ≠ [] →
      Canonical (write segments) ∧ parse? (write segments) = some ⟨write segments, segments⟩) ∧
    (∀ text, Canonical text → ∃ p, parse? text = some p ∧ write p.segments = text) ∧
    (∀ segments others, segments ≠ [] → others ≠ [] → write segments = write others →
      segments = others) ∧
    ∀ text other p q, Canonical text → Canonical other → parse? text = some p →
      parse? other = some q → p.segments = q.segments → text = other := by
  refine ⟨fun key => ?_, fun segments h => ⟨canonical_write segments, parse?_write h⟩, ?_, ?_, ?_⟩
  · rw [escape, String.toList_ofList, encode_eq_passes]
  · intro text htext
    obtain ⟨p, hp⟩ := exists_parse?_iff.mpr htext.1
    exact ⟨p, hp, write_segments htext hp⟩
  · intro segments others h hothers heq
    have hread := parse?_write h
    rw [heq, parse?_write hothers] at hread
    exact (congrArg Pointer.segments (Option.some.inj hread)).symm
  · intro text other p q htext hother hp hq heq
    rw [← write_segments htext hp, heq, write_segments hother hq]

/-- Segments with every mark in them, and a text with every escape. -/
theorem write_inverse_marked :
    write ["a/b", "", "~1~"] = "#/a~1b//~01~0" ∧
      parse? "#/a~1b//~01~0" = some ⟨"#/a~1b//~01~0", ["a/b", "", "~1~"]⟩ ∧
      Canonical "#/~01/~1~0" ∧
      ∃ p, parse? "#/~01/~1~0" = some p ∧ p.segments = ["~1", "/~"] ∧
        write p.segments = "#/~01/~1~0" := by
  have hwrite : write ["a/b", "", "~1~"] = "#/a~1b//~01~0" := by decide +kernel
  have hcanonical : Canonical "#/~01/~1~0" := by decide +kernel
  obtain ⟨-, hread, hwritten, -⟩ := write_inverse
  obtain ⟨p, hp, hback⟩ := hwritten "#/~01/~1~0" hcanonical
  have hsegments : (parse? "#/~01/~1~0").map Pointer.segments = some ["~1", "/~"] := by
    decide +kernel
  rw [hp, Option.map_some] at hsegments
  refine ⟨hwrite, ?_, hcanonical, p, hp, Option.some.inj hsegments, hback⟩
  rw [← hwrite]
  exact (hread ["a/b", "", "~1~"] (by decide)).2

end Pointer

end ApiSchema
