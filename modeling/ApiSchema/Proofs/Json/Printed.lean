/-
JSON text is printed as it is.

All that the writer puts down is printable ASCII and line breaks, whatever the texts
and keys of the value are: other characters are escaped, and keys stand between quotes
even if they are no texts.  The keys may be in any order, so nothing is asked of a
value but that it has a text.

What a terminal takes for a control sequence starts with an escape character.  There
is none in such a text, so leaving control sequences out leaves the text as it is.
-/
import ApiSchema.Proofs.Json.Arrangement
import ApiSchema.Proofs.Json.Scalars
import ApiSchema.Proofs.Result
import ApiSchema.Text.ControlSequence

namespace ApiSchema

/-- The character is printable ASCII or a line break. -/
def isShown (c : Char) : Bool := c = '\n' || (0x20 ≤ c.toNat && c.toNat < 0x7f)

/-- All characters are printable ASCII or line breaks. -/
def Shown (cs : List Char) : Prop := ∀ c ∈ cs, isShown c = true

namespace Shown

variable {c : Char} {cs ds : List Char}

theorem nil : Shown [] := by
  intro c hc
  simp at hc

theorem cons_iff : Shown (c :: cs) ↔ isShown c = true ∧ Shown cs := List.forall_mem_cons

theorem append_iff : Shown (cs ++ ds) ↔ Shown cs ∧ Shown ds := List.forall_mem_append

theorem of_all (h : cs.all isShown = true) : Shown cs := List.all_eq_true.mp h

theorem replicate (n : Nat) (h : isShown c = true) : Shown (List.replicate n c) := by
  intro d hd
  rwa [List.eq_of_mem_replicate hd]

theorem ascii (h : Shown cs) : ∀ c ∈ cs, c.toNat < 128 := by
  intro c hc
  have hshown := h c hc
  simp only [isShown, Bool.or_eq_true, Bool.and_eq_true, decide_eq_true_eq] at hshown
  rcases hshown with rfl | hrange
  · decide
  · omega

theorem intercalate {separator : String} (hseparator : Shown separator.toList)
    {parts : List String} (hparts : ∀ part ∈ parts, Shown part.toList) :
    Shown (separator.intercalate parts).toList := by
  induction parts with
  | nil => exact nil
  | cons part parts ih =>
    obtain ⟨hpart, hothers⟩ := List.forall_mem_cons.mp hparts
    cases parts with
    | nil => simpa using hpart
    | cons next parts =>
      rw [String.intercalate_cons_cons, String.toList_append, String.toList_append]
      exact append_iff.mpr ⟨append_iff.mpr ⟨hpart, hseparator⟩, ih hothers⟩

end Shown

/-! ### Texts -/

namespace Json

open Numeral

theorem shown_unitEscape (n : Nat) : Shown (unitEscape n) := by
  have hdigit (d : Nat) : isShown (Nat.digitChar (d % 16)) = true := by
    have hall : ∀ d, d < 16 → isShown (Nat.digitChar d) = true := by decide
    exact hall _ (Nat.mod_lt _ (by decide))
  rw [unitEscape, hex_four]
  simp only [Shown.cons_iff, hdigit, Shown.nil, and_true]
  decide

theorem shown_escapedChar (c : Char) : Shown (escapedChar c) := by
  rw [escapedChar]
  -- Seven characters have a short escape.
  iterate 7
    split
    · exact .of_all (by decide)
  split
  · next hplain => simpa [Shown, isShown] using .inr hplain
  split
  · exact shown_unitEscape _
  · exact Shown.append_iff.mpr ⟨shown_unitEscape _, shown_unitEscape _⟩

theorem shown_quote (s : String) : Shown (quote s).toList := by
  rw [quote, String.toList_ofList, Shown.cons_iff, Shown.append_iff]
  refine ⟨by decide, fun c hc => ?_, .of_all (by decide)⟩
  obtain ⟨d, -, hd⟩ := List.mem_flatMap.mp hc
  exact shown_escapedChar d c hd

/-! ### Numbers -/

theorem isShown_of_isDigit {c : Char} (h : isDigit c = true) : isShown c = true := by
  simp only [isDigit, Bool.and_eq_true, decide_eq_true_eq] at h
  simp only [isShown, Bool.or_eq_true, Bool.and_eq_true, decide_eq_true_eq]
  have hlow : 48 ≤ c.toNat := h.1
  have hhigh : c.toNat ≤ 57 := h.2
  omega

theorem shown_toDigits (n : Nat) : Shown (Nat.toDigits 10 n) :=
  fun _ hc => isShown_of_isDigit (isDigit_of_mem_toDigits hc)

theorem shown_int (n : Int) : Shown (toString n).toList := by
  obtain ⟨c, cs, hcs, hall⟩ := toList_toString_int n
  rw [hcs]
  intro d hd
  rcases hall d hd with hdigit | rfl
  · exact isShown_of_isDigit hdigit
  · decide

theorem shown_positional {digits : List Char} (h : Shown digits) (magnitude : Int) :
    Shown (NumberLayout.positional digits magnitude) := by
  have hzeros (n : Nat) : Shown (List.replicate n '0') := .replicate n (by decide)
  rw [NumberLayout.positional]
  split
  · simp only [Shown.cons_iff, Shown.append_iff]
    exact ⟨by decide, by decide, hzeros _, h⟩
  · simp only [Shown.cons_iff, Shown.append_iff]
    refine ⟨⟨fun c hc => h c (List.mem_of_mem_take hc), hzeros _⟩, by decide, ?_⟩
    split
    · exact .of_all (by decide)
    · exact fun c hc => h c (List.mem_of_mem_drop hc)

theorem shown_scientific (layout : NumberLayout) {digits : List Char} (h : Shown digits)
    (magnitude : Int) : Shown (layout.scientific digits magnitude) := by
  simp only [NumberLayout.scientific, Shown.append_iff, Shown.cons_iff]
  refine ⟨?_, by decide, by split <;> decide, .replicate _ (by decide), shown_toDigits _⟩
  split
  · obtain ⟨hd, hrest⟩ := Shown.cons_iff.mp h
    exact Shown.cons_iff.mpr ⟨hd, Shown.cons_iff.mpr ⟨by decide, hrest⟩⟩
  · exact h

theorem shown_float (x : Binary64) : Shown (numberLayout.write x).toList := by
  cases x with
  | nan payload =>
    rw [NumberLayout.write]
    exact .of_all (by decide)
  | infinite s => cases s <;> exact .of_all (by decide)
  | finite s m e =>
    have hbody : Shown (if m = 0 then ['0', '.', '0'] else
        let d := Binary64.shortest m e
        if numberLayout.positionalFrom ≤ d.magnitude ∧ d.magnitude < numberLayout.positionalBelow
        then NumberLayout.positional d.text d.magnitude
        else numberLayout.scientific d.text d.magnitude) := by
      split
      · exact .of_all (by decide)
      dsimp only
      split
      · exact shown_positional (shown_toDigits _) _
      · exact shown_scientific _ (shown_toDigits _) _
    rw [NumberLayout.write, String.toList_ofList]
    split
    · exact Shown.cons_iff.mpr ⟨by decide, hbody⟩
    · exact hbody

/-! ### Values -/

theorem shown_writeScalar {s : Scalar} {text : String} (h : writeScalar s = .ok text) :
    Shown text.toList := by
  cases s with
  | str s =>
    obtain rfl := Except.ok.inj h
    exact shown_quote s
  | null =>
    obtain rfl := Except.ok.inj h
    exact .of_all (by decide)
  | bool b =>
    obtain rfl := Except.ok.inj h
    cases b <;> exact .of_all (by decide)
  | int n =>
    rw [writeScalar, plainScalar] at h
    · split at h
      · obtain rfl := Except.ok.inj h
        exact shown_int n
      · simp at h
    · simp
  | float x =>
    obtain rfl := Except.ok.inj h
    exact shown_float x
  | _ => simp [writeScalar, plainScalar] at h

theorem shown_newLine (style : Style) (level : Nat) : Shown (newLine style level).toList := by
  simp only [newLine, String.toList_append, String.toList_ofList]
  exact Shown.append_iff.mpr ⟨.of_all (by decide), .replicate _ (by decide)⟩

theorem shown_bracket (style : Style) (level : Nat) {opening closing : String}
    (hopening : Shown opening.toList) (hclosing : Shown closing.toList) {items : List String}
    (hitems : ∀ item ∈ items, Shown item.toList) :
    Shown (bracket style level opening closing items).toList := by
  rw [bracket]
  split
  · rw [String.toList_append, Shown.append_iff]
    exact ⟨hopening, hclosing⟩
  · have hseparator : Shown ("," ++ newLine style (level + 1)).toList := by
      rw [String.toList_append, Shown.append_iff]
      exact ⟨.of_all (by decide), shown_newLine _ _⟩
    simp only [String.toList_append, Shown.append_iff]
    exact ⟨⟨⟨⟨hopening, shown_newLine _ _⟩, .intercalate hseparator hitems⟩, shown_newLine _ _⟩,
      hclosing⟩

theorem shown_writeField {key : Scalar} {value : Except Fault String} {text : String}
    (hvalue : ∀ text, value = .ok text → Shown text.toList)
    (h : writeField (key, value) = .ok text) : Shown text.toList := by
  obtain ⟨quoted, hkey, hrest⟩ := bind_eq_ok.mp h
  obtain ⟨written, hwritten, htext⟩ := bind_eq_ok.mp hrest
  obtain ⟨plain, -, rfl⟩ : ∃ plain, plainScalar key = .ok plain ∧ quote plain = quoted := by
    rw [writeKey] at hkey
    cases hplain : plainScalar key with
    | error fault => simp [hplain, Except.map] at hkey
    | ok plain =>
      rw [hplain] at hkey
      exact ⟨plain, rfl, Except.ok.inj hkey⟩
  rw [← Except.ok.inj htext, String.toList_append, String.toList_append, Shown.append_iff,
    Shown.append_iff]
  exact ⟨⟨shown_quote plain, .of_all (by decide)⟩, hvalue _ hwritten⟩

/-- **JSON text is printable ASCII and line breaks.** -/
theorem shown_write {style : Style} {v : Value} {level : Nat} {text : String}
    (h : write style level v = .ok text) : Shown text.toList := by
  induction hn : sizeOf v using Nat.strongRecOn generalizing v level text with
  | ind n ih =>
    subst hn
    cases v with
    | scalar s => exact shown_writeScalar h
    | array kind items =>
      obtain ⟨texts, htexts, htext⟩ := bind_eq_ok.mp h
      rw [← Except.ok.inj htext]
      rw [writeItems_eq] at htexts
      refine shown_bracket _ _ (.of_all (by decide)) (.of_all (by decide)) fun item hitem => ?_
      obtain ⟨w, hw, hwrite⟩ := exists_mem_of_mapM htexts item hitem
      have hsize := List.sizeOf_lt_of_mem hw
      exact ih (sizeOf w) (by simp; omega) hwrite rfl
    | mapping es =>
      obtain ⟨fields, hfields, hrest⟩ := bind_eq_ok.mp h
      obtain ⟨texts, htexts, htext⟩ := bind_eq_ok.mp hrest
      rw [← Except.ok.inj htext]
      refine shown_bracket _ _ (.of_all (by decide)) (.of_all (by decide)) fun item hitem => ?_
      obtain ⟨field, hfield, hwrite⟩ := exists_mem_of_mapM htexts item hitem
      have hmem := (perm_of_arrange hfields).mem_iff.mp hfield
      rw [writeValues_eq] at hmem
      obtain ⟨⟨key, w⟩, he, rfl⟩ := List.mem_map.mp hmem
      have hsize := List.sizeOf_lt_of_mem he
      exact shown_writeField (fun text htext => ih (sizeOf w) (by simp at hsize ⊢; omega) htext rfl)
        hwrite

theorem shown_render {style : Style} {v : Value} {text : String}
    (h : render style v = .ok text) : Shown text.toList := by
  rw [render] at h
  split at h
  · simp at h
  · exact shown_write h

end Json

/-! ### Control sequences -/

/-- A text without escape characters has no control sequences. -/
theorem Text.withoutControls_of_not_mem {s : String} (h : '\x1b' ∉ s.toList) :
    withoutControls s = s := by
  have hplain (cs : List Char) (hcs : '\x1b' ∉ cs) : plainChars 0 cs = cs := by
    induction cs with
    | nil => rfl
    | cons c cs ih =>
      obtain ⟨hc, hcs⟩ := not_or.mp (mt List.mem_cons.mpr hcs)
      have hnone : controlTail? (c :: cs) = none := by
        rw [controlTail?]
        intro rest heq
        exact hc (List.cons.inj heq).1.symm
      rw [plainChars, hnone, ih hcs]
  rw [withoutControls, hplain s.toList h, String.ofList_toList]

theorem Shown.withoutControls_eq {s : String} (h : Shown s.toList) : Text.withoutControls s = s :=
  Text.withoutControls_of_not_mem fun hescape => absurd (h _ hescape) (by decide)

end ApiSchema
