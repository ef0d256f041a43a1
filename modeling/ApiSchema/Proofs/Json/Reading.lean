/-
Values are read back from their JSON text.

The text of a plain value is read as the value itself, with every array read as one of
the ordinary kind.

The text of a container is a row of lines, and the reader goes through it line by
line: blanks, then the value, then a comma or the end.  What has to be known of a part
is that it is read whatever stands behind it, that it does not start with a blank or a
closing bracket, and that a budget of as many calls as it has characters suffices
(`ReadsAs`).
-/
import ApiSchema.Proofs.Json.Plain
import ApiSchema.Proofs.Json.Scalars
import ApiSchema.Proofs.Result

namespace ApiSchema

namespace Json

/-! ### Blanks -/

/-- The character is white space. -/
def isBlank (c : Char) : Bool := c = ' ' || c = '\n' || c = '\t' || c = '\r'

theorem skipBlank_append {blanks : List Char} (h : ∀ c ∈ blanks, isBlank c = true)
    (cs : List Char) : skipBlank (blanks ++ cs) = skipBlank cs :=
  List.dropWhile_append_of_pos h

theorem skipBlank_cons {c : Char} (h : isBlank c = false) (cs : List Char) :
    skipBlank (c :: cs) = c :: cs :=
  List.dropWhile_cons_of_neg (ne_true_of_eq_false h : isBlank c ≠ true)

theorem readValue?_blanks {blanks : List Char} (h : ∀ c ∈ blanks, isBlank c = true) (fuel : Nat)
    (cs : List Char) : readValue? fuel (blanks ++ cs) = readValue? fuel cs := by
  cases fuel with
  | zero => rfl
  | succ fuel => rw [readValue?, readValue?, skipBlank_append h]

/-! ### What is known of a part -/

/-- The characters are read as the value. -/
structure ReadsAs (cs : List Char) (v : Value) : Prop where
  start : ∃ c rest, cs = c :: rest ∧ isBlank c = false ∧ c ≠ ']' ∧ c ≠ '\x7d'
  read : ∀ fuel rest, cs.length ≤ fuel → Ends rest → readValue? fuel (cs ++ rest) = some (v, rest)

/-! ### Scalars -/

/-- The character starts a value that is neither a container nor a text. -/
def startsPlain (c : Char) : Bool :=
  !isBlank c && !(['[', ']', '\x7b', '\x7d', '\x22'].contains c)

/-- What is read as a scalar that is no text is read where a value is expected. -/
theorem readsAs_of_readPlain? {cs : List Char} {s : Scalar}
    (hstart : ∃ c rest, cs = c :: rest ∧ startsPlain c = true)
    (h : ∀ rest, Ends rest → readPlain? (cs ++ rest) = some (s, rest)) :
    ReadsAs cs (.scalar s) := by
  obtain ⟨c, cs, rfl, hc⟩ := hstart
  simp only [startsPlain, Bool.and_eq_true, Bool.not_eq_true', List.contains_eq_mem,
    decide_eq_false_iff_not, List.mem_cons, not_or] at hc
  obtain ⟨hblank, hlist, hcloses, hmapping, hmappingCloses, htext, -⟩ := hc
  refine ⟨⟨c, cs, rfl, hblank, hcloses, hmappingCloses⟩, fun fuel rest hfuel hrest => ?_⟩
  obtain ⟨fuel, rfl⟩ : ∃ n, fuel = n + 1 := Nat.exists_eq_add_one.mpr (by simp at hfuel; omega)
  have hread := h rest hrest
  rw [List.cons_append] at hread ⊢
  rw [readValue?, skipBlank_cons hblank]
  split
  · next heq => exact absurd (List.cons.inj heq).1 hlist
  · next heq => exact absurd (List.cons.inj heq).1 hmapping
  · next heq => exact absurd (List.cons.inj heq).1 htext
  · rw [hread]
    rfl

theorem readsAs_int (n : Int) : ReadsAs (toString n).toList (.scalar (.int n)) := by
  have hchar {c : Char} (hc : Numeral.isDigit c = true ∨ c = '-') : startsPlain c = true := by
    rcases hc with hc | rfl
    · have hall : ∀ n < 58, 48 ≤ n → startsPlain (Char.ofNat n) = true := by decide
      have hbounds : 48 ≤ c.toNat ∧ c.toNat ≤ 57 := by
        simpa [Numeral.isDigit, Char.le_def, UInt32.le_iff_toNat_le] using hc
      rw [← Char.ofNat_toNat c]
      exact hall c.toNat (by omega) hbounds.1
    · decide
  obtain ⟨c, cs, hcs, hall⟩ := toList_toString_int n
  exact readsAs_of_readPlain? ⟨c, cs, hcs, hchar (hall c List.mem_cons_self)⟩
    fun rest hrest => readPlain?_int n hrest

theorem toList_quote (s : String) :
    (quote s).toList = '\x22' :: (s.toList.flatMap escapedChar ++ ['\x22']) :=
  String.toList_ofList

/-- What stands behind the opening quote is read as the text. -/
theorem readText?_quote (s : String) (rest : List Char) :
    ∃ cs, (quote s).toList ++ rest = '\x22' :: cs ∧ readText? cs.length [] cs = some (s, rest) := by
  refine ⟨s.toList.flatMap escapedChar ++ '\x22' :: rest, by rw [toList_quote]; simp, ?_⟩
  have hlength := length_le_flatMap_escapedChar s.toList
  rw [readText?_quoted s.toList rest [] (by rw [List.length_append, List.length_cons]; omega)]
  simp

theorem readsAs_quote (s : String) : ReadsAs (quote s).toList (.str s) := by
  refine ⟨⟨'\x22', _, toList_quote s, rfl, by decide, by decide⟩,
    fun fuel rest hfuel _ => ?_⟩
  obtain ⟨fuel, rfl⟩ : ∃ n, fuel = n + 1 :=
    Nat.exists_eq_add_one.mpr (by rw [toList_quote] at hfuel; simp at hfuel; omega)
  obtain ⟨cs, hcs, hread⟩ := readText?_quote s rest
  rw [hcs, readValue?, skipBlank_cons rfl]
  simp [hread]

/-- **A plain scalar has a text, and it is read as the scalar.** -/
theorem readsAs_writeScalar {s : Scalar} (h : s.isPlain = true) :
    ∃ text, writeScalar s = .ok text ∧ ReadsAs text.toList (.scalar s) := by
  cases s with
  | null =>
    refine ⟨"null", rfl, readsAs_of_readPlain? ⟨'n', _, rfl, by decide⟩ fun rest _ => ?_⟩
    simp [readPlain?, dropWord?]
  | bool b =>
    cases b with
    | true =>
      refine ⟨"true", rfl, readsAs_of_readPlain? ⟨'t', _, rfl, by decide⟩
        fun rest _ => ?_⟩
      simp [readPlain?, dropWord?]
    | false =>
      refine ⟨"false", rfl, readsAs_of_readPlain? ⟨'f', _, rfl, by decide⟩
        fun rest _ => ?_⟩
      simp [readPlain?, dropWord?]
  | int n =>
    rw [Scalar.isPlain] at h
    exact ⟨toString n, by rw [writeScalar, plainScalar, if_pos h]; simp, readsAs_int n⟩
  | str s => exact ⟨quote s, rfl, readsAs_quote s⟩
  | _ => simp [Scalar.isPlain] at h

/-! ### Lines -/

/-- Parts on lines of their own, with commas between: the line break in front of a part, the one
behind the last part, the first part and the others. -/
def lines (before behind first : List Char) : List (List Char) → List Char
  | [] => before ++ (first ++ behind)
  | next :: others => before ++ (first ++ ',' :: lines before behind next others)

theorem toList_bracket (style : Style) (level : Nat) (opening closing first : String)
    (others : List String) :
    (bracket style level opening closing (first :: others)).toList =
      opening.toList ++ (lines (newLine style (level + 1)).toList (newLine style level).toList
        first.toList (others.map String.toList) ++ closing.toList) := by
  have hlines : (newLine style (level + 1)).toList ++
        ((("," ++ newLine style (level + 1)).intercalate (first :: others)).toList ++
          (newLine style level).toList) =
      lines (newLine style (level + 1)).toList (newLine style level).toList first.toList
        (others.map String.toList) := by
    induction others generalizing first with
    | nil => simp [lines]
    | cons next others ih =>
      rw [List.map_cons, lines, ← ih, String.intercalate_cons_cons]
      simp
  rw [← hlines, bracket, if_neg (by simp)]
  simp

variable {before behind : List Char} {first : List Char} {others : List (List Char)} {v : Value}
  {vs : List Value}

/-- What stands behind a part ends a number. -/
theorem ends_of_blanks (hne : before ≠ []) (hbefore : ∀ c ∈ before, isBlank c = true)
    (rest : List Char) : Ends (before ++ rest) := by
  obtain ⟨c, cs, rfl⟩ := List.exists_cons_of_ne_nil hne
  have hblank := hbefore c List.mem_cons_self
  simp only [isBlank, Bool.or_eq_true, decide_eq_true_eq] at hblank
  rcases hblank with ((rfl | rfl) | rfl) | rfl <;> exact ends_cons (by decide)

theorem readItems?_lines (hbefore : ∀ c ∈ before, isBlank c = true) (hne : before ≠ [])
    (hbehind : ∀ c ∈ behind, isBlank c = true) (hne' : behind ≠ []) (hfirst : ReadsAs first v)
    (hothers : List.Forall₂ ReadsAs others vs) {fuel : Nat} (rest : List Char)
    (hfuel : (lines before behind first others).length ≤ fuel) :
    readItems? fuel (lines before behind first others ++ ']' :: rest) = some (v :: vs, rest) := by
  -- Each line takes one call, and its line break alone is a character to pay for it.
  have hpos : 0 < before.length := List.length_pos_iff.mpr hne
  induction hothers generalizing first v fuel with
  | nil =>
    rw [lines, List.length_append, List.length_append] at hfuel
    obtain ⟨fuel, rfl⟩ : ∃ n, fuel = n + 1 := Nat.exists_eq_add_one.mpr (by omega)
    have hread := hfirst.read fuel (behind ++ ']' :: rest) (by omega)
      (ends_of_blanks hne' hbehind _)
    rw [lines, readItems?, List.append_assoc, List.append_assoc, readValue?_blanks hbefore, hread]
    simp only [Option.bind_eq_bind, Option.bind_some, skipBlank_append hbehind,
      skipBlank_cons (c := ']') rfl, Option.pure_def]
  | @cons next w others ws hnext hrest ih =>
    rw [lines, List.length_append, List.length_append, List.length_cons] at hfuel
    obtain ⟨fuel, rfl⟩ : ∃ n, fuel = n + 1 := Nat.exists_eq_add_one.mpr (by omega)
    have hread := hfirst.read fuel (',' :: (lines before behind next others ++ ']' :: rest))
      (by omega) (ends_cons (by decide))
    have htail := ih hnext (by omega : (lines before behind next others).length ≤ fuel)
    rw [lines, readItems?, List.append_assoc, List.append_assoc, List.cons_append,
      readValue?_blanks hbefore, hread]
    simp only [Option.bind_eq_bind, Option.bind_some, skipBlank_cons (c := ',') rfl, htail,
      Option.pure_def]

/-- The part is a field: a key between quotes, a colon and a value. -/
def FieldAs (part : List Char) (key : String) (v : Value) : Prop :=
  ∃ cs, part = (quote key).toList ++ ':' :: ' ' :: cs ∧ ReadsAs cs v

/-- A field is read in three steps, up to what stands behind it. -/
theorem field_steps {part cs : List Char} {key : String} (fuel : Nat)
    (hbefore : ∀ c ∈ before, isBlank c = true) (hpart : FieldAs part key v) (hends : Ends cs)
    (hfuel : part.length ≤ fuel) :
    ∃ quoted value, skipBlank (before ++ (part ++ cs)) = '\x22' :: quoted ∧
      readText? quoted.length [] quoted = some (key, ':' :: value) ∧
      readValue? fuel value = some (v, cs) := by
  obtain ⟨value, rfl, hvalue⟩ := hpart
  obtain ⟨quoted, hquoted, htext⟩ := readText?_quote key (':' :: ' ' :: (value ++ cs))
  refine ⟨quoted, ' ' :: (value ++ cs), ?_, htext, ?_⟩
  · have hfront : (quote key).toList ++ ':' :: ' ' :: value ++ cs = '\x22' :: quoted := by
      rw [← hquoted]
      simp
    rw [skipBlank_append hbefore, hfront, skipBlank_cons rfl]
  · have hblank : ∀ c ∈ [' '], isBlank c = true := List.forall_mem_singleton.mpr rfl
    have hlength : value.length ≤ fuel := by
      simp only [List.length_append, List.length_cons] at hfuel
      omega
    rw [← List.singleton_append, readValue?_blanks hblank]
    exact hvalue.read fuel cs hlength hends

theorem readFields?_lines {key : String} {fields : List (String × Value)}
    (hbefore : ∀ c ∈ before, isBlank c = true) (hne : before ≠ [])
    (hbehind : ∀ c ∈ behind, isBlank c = true) (hne' : behind ≠ []) (hfirst : FieldAs first key v)
    (hothers : List.Forall₂ (fun part field => FieldAs part field.1 field.2) others fields)
    {fuel : Nat} (rest : List Char) (hfuel : (lines before behind first others).length ≤ fuel) :
    readFields? fuel (lines before behind first others ++ '\x7d' :: rest) =
      some ((.str key, v) :: fields.map fun field => (.str field.1, field.2), rest) := by
  have hpos : 0 < before.length := List.length_pos_iff.mpr hne
  induction hothers generalizing first key v fuel with
  | nil =>
    rw [lines, List.length_append, List.length_append] at hfuel
    obtain ⟨fuel, rfl⟩ : ∃ n, fuel = n + 1 := Nat.exists_eq_add_one.mpr (by omega)
    obtain ⟨quoted, value, hskip, htext, hvalue⟩ := field_steps fuel hbefore hfirst
      (ends_of_blanks hne' hbehind ('\x7d' :: rest)) (by omega)
    rw [lines, List.append_assoc, List.append_assoc, readFields?, hskip]
    simp only [htext, Option.bind_eq_bind, Option.bind_some, skipBlank_cons (c := ':') rfl, hvalue,
      skipBlank_append hbehind, skipBlank_cons (c := '\x7d') rfl, Option.pure_def, List.map_nil]
  | @cons next field others fields hnext hrest ih =>
    rw [lines, List.length_append, List.length_append, List.length_cons] at hfuel
    obtain ⟨fuel, rfl⟩ : ∃ n, fuel = n + 1 := Nat.exists_eq_add_one.mpr (by omega)
    have htail := ih hnext (by omega : (lines before behind next others).length ≤ fuel)
    have hends : Ends (',' :: (lines before behind next others ++ '\x7d' :: rest)) :=
      ends_cons (by decide)
    obtain ⟨quoted, value, hskip, htext, hvalue⟩ := field_steps fuel hbefore hfirst hends (by omega)
    rw [lines, List.append_assoc, List.append_assoc, List.cons_append, readFields?, hskip]
    simp only [htext, Option.bind_eq_bind, Option.bind_some, skipBlank_cons (c := ':') rfl, hvalue,
      skipBlank_cons (c := ',') rfl, htail, List.map_cons, Option.pure_def]

/-! ### Containers -/

theorem newLine_blank (style : Style) (level : Nat) :
    (∀ c ∈ (newLine style level).toList, isBlank c = true) ∧ (newLine style level).toList ≠ [] := by
  simp only [newLine, String.toList_append, String.toList_ofList]
  refine ⟨List.forall_mem_append.mpr ⟨by simp [isBlank], fun c hc => ?_⟩, by simp⟩
  rw [List.eq_of_mem_replicate hc]
  rfl

variable {style : Style} {level : Nat} {texts : List String} {fields : List (String × Value)}

/-- The first thing on the lines is what the first part starts with. -/
theorem skipBlank_lines (hbefore : ∀ c ∈ before, isBlank c = true) {c : Char} {cs : List Char}
    (hfirst : first = c :: cs) (hc : isBlank c = false) (rest : List Char) :
    ∃ more, skipBlank (lines before behind first others ++ rest) = c :: more := by
  obtain ⟨more, hmore⟩ : ∃ more, lines before behind first others = before ++ (first ++ more) := by
    cases others <;> exact ⟨_, rfl⟩
  refine ⟨cs ++ (more ++ rest), ?_⟩
  rw [hmore, List.append_assoc, skipBlank_append hbefore, hfirst, List.cons_append,
    List.cons_append, skipBlank_cons hc, List.append_assoc]

/-- A container with lines is read if its reader takes the lines with a budget of their length. -/
theorem readsAs_bracket {opening closing first : String} {others : List String} {c d : Char}
    (hopening : opening.toList = [c]) (hclosing : closing.toList = [d])
    (hc : isBlank c = false ∧ c ≠ ']' ∧ c ≠ '\x7d')
    (hread : ∀ fuel rest, (lines (newLine style (level + 1)).toList (newLine style level).toList
        first.toList (others.map String.toList)).length ≤ fuel →
      readValue? (fuel + 1) (c :: (lines (newLine style (level + 1)).toList
        (newLine style level).toList first.toList (others.map String.toList) ++ d :: rest)) =
          some (v, rest)) :
    ReadsAs (bracket style level opening closing (first :: others)).toList v := by
  have hchars := toList_bracket style level opening closing first others
  rw [hopening, hclosing, List.singleton_append] at hchars
  refine ⟨⟨c, _, hchars, hc⟩, fun fuel rest hfuel _ => ?_⟩
  rw [hchars, List.length_cons, List.length_append] at hfuel
  obtain ⟨fuel, rfl⟩ : ∃ n, fuel = n + 1 := Nat.exists_eq_add_one.mpr (by omega)
  rw [hchars, List.cons_append, List.append_assoc, List.singleton_append]
  exact hread fuel rest (by omega)

/-- Behind an opening bracket stand items, unless it is closed at once. -/
theorem readValue?_items {fuel : Nat} {c : Char} {cs more : List Char}
    (hskip : skipBlank cs = c :: more) (hc : c ≠ ']') :
    readValue? (fuel + 1) ('[' :: cs) =
      (readItems? fuel cs).map fun (items, rest) => (.array .list items, rest) := by
  rw [readValue?, skipBlank_cons rfl]
  simp only [hskip]
  split
  · next heq => exact absurd (List.cons.inj heq).1 hc
  · cases readItems? fuel cs <;> rfl

theorem readValue?_fields {fuel : Nat} {c : Char} {cs more : List Char}
    (hskip : skipBlank cs = c :: more) (hc : c ≠ '\x7d') :
    readValue? (fuel + 1) ('\x7b' :: cs) =
      (readFields? fuel cs).map fun (fields, rest) =>
        (.mapping (Entries.ofPairs fields), rest) := by
  rw [readValue?, skipBlank_cons rfl]
  simp only [hskip]
  split
  · next heq => exact absurd (List.cons.inj heq).1 hc
  · cases readFields? fuel cs <;> rfl

theorem readsAs_array (h : List.Forall₂ (fun text v => ReadsAs text.toList v) texts vs) :
    ReadsAs (bracket style level "[" "]" texts).toList (.array .list vs) := by
  cases h with
  | nil =>
    refine ⟨⟨'[', [']'], by simp [bracket], by decide⟩, fun fuel rest hfuel _ => ?_⟩
    obtain ⟨fuel, rfl⟩ : ∃ n, fuel = n + 1 :=
      Nat.exists_eq_add_one.mpr (Nat.lt_of_lt_of_le (by simp [bracket]) hfuel)
    simp [bracket, readValue?, skipBlank]
  | @cons first v others vs hfirst hothers =>
    obtain ⟨hblank, hne⟩ := newLine_blank style (level + 1)
    obtain ⟨hblank', hne'⟩ := newLine_blank style level
    obtain ⟨c, cs, hc, hcblank, hcloses, -⟩ := hfirst.start
    refine readsAs_bracket (c := '[') (d := ']') rfl rfl (by decide) fun fuel rest hfuel => ?_
    obtain ⟨more, hskip⟩ := skipBlank_lines hblank hc hcblank (']' :: rest)
    rw [readValue?_items hskip hcloses, readItems?_lines hblank hne hblank' hne' hfirst
      (List.forall₂_map_left_iff.mpr hothers) rest hfuel]
    rfl

theorem readsAs_mapping (hdistinct : (fields.map (·.1)).Nodup)
    (h : List.Forall₂ (fun text field => FieldAs text.toList field.1 field.2) texts fields) :
    ReadsAs (bracket style level "\x7b" "\x7d" texts).toList
      (.mapping (fields.map fun field => (.str field.1, field.2))) := by
  have hnamed : Entries.Named (fields.map fun field => (.str field.1, field.2)) := by
    refine ⟨?_, ?_⟩ <;> rw [Entries.keys, List.map_map]
    · exact List.forall_mem_map.mpr fun _ _ => rfl
    · have hkeys := hdistinct.map (f := Scalar.str) fun _ _ => Scalar.str.inj
      rwa [List.map_map] at hkeys
  cases h with
  | nil =>
    refine ⟨⟨'\x7b', ['\x7d'], by simp [bracket], by decide⟩, fun fuel rest hfuel _ => ?_⟩
    obtain ⟨fuel, rfl⟩ : ∃ n, fuel = n + 1 :=
      Nat.exists_eq_add_one.mpr (Nat.lt_of_lt_of_le (by simp [bracket]) hfuel)
    simp [bracket, readValue?, skipBlank]
  | @cons first field others fields hfirst hothers =>
    obtain ⟨hblank, hne⟩ := newLine_blank style (level + 1)
    obtain ⟨hblank', hne'⟩ := newLine_blank style level
    have hstart := hfirst
    obtain ⟨value, hquote, -⟩ := hstart
    rw [toList_quote, List.cons_append] at hquote
    refine readsAs_bracket (c := '\x7b') (d := '\x7d') rfl rfl (by decide)
      fun fuel rest hfuel => ?_
    obtain ⟨more, hskip⟩ := skipBlank_lines hblank hquote rfl ('\x7d' :: rest)
    rw [readValue?_fields hskip (by decide), readFields?_lines hblank hne hblank' hne' hfirst
      (List.forall₂_map_left_iff.mpr hothers) rest hfuel, Option.map_some]
    rw [List.map_cons] at hnamed ⊢
    simp only [hnamed.ofPairs_eq]

/-- **A plain value has a text, and it is read as the value.** -/
theorem readsAs_write {style : Style} (hsort : style.sortKeys = false) (h : Plain v) (level : Nat) :
    ∃ text, write style level v = .ok text ∧ ReadsAs text.toList v.lists := by
  induction h generalizing level with
  | @scalar s plain => exact readsAs_writeScalar plain
  | @array kind items _ ih =>
    choose! text htext hreads using fun v hv => ih v hv (level + 1)
    have hitems : writeItems style (level + 1) items = .ok (items.map text) := by
      rw [writeItems_eq]
      exact mapM_eq_ok_map htext
    refine ⟨bracket style level "[" "]" (items.map text), bind_eq_ok.mpr ⟨_, hitems, rfl⟩, ?_⟩
    rw [Value.lists, Value.itemLists_eq]
    refine readsAs_array ?_
    rw [List.forall₂_map_left_iff, List.forall₂_map_right_iff, List.forall₂_same]
    exact hreads
  | @mapping es named _ ih =>
    -- The fields are written in their own order, each key as the text that it is.
    choose! text htext hreads using fun e he => ih e he (level + 1)
    have hkey (e : Scalar × Value) (he : e ∈ es) : e.1 = .str e.1.name :=
      Scalar.eq_str_name (named.texts e.1 (List.mem_map_of_mem he))
    have harrange : arrange style (writeValues style (level + 1) es) =
        .ok (es.map fun e => (e.1, write style (level + 1) e.2)) := by
      rw [arrange, if_neg (by rw [hsort]; decide), writeValues_eq]
    have hfields : (es.map fun e => (e.1, write style (level + 1) e.2)).mapM writeField =
        .ok (es.map fun e => quote e.1.name ++ ": " ++ text e) := by
      rw [List.mapM_map]
      refine mapM_eq_ok_map fun e he => ?_
      have hwritten : writeKey e.1 = .ok (quote e.1.name) := by
        rw [hkey e he]
        rfl
      exact bind_eq_ok.mpr ⟨_, hwritten, bind_eq_ok.mpr ⟨_, htext e he, rfl⟩⟩
    have hentries : Value.entryLists es =
        (es.map fun e => (e.1.name, e.2.lists)).map fun field => (.str field.1, field.2) := by
      rw [Value.entryLists_eq, List.map_map]
      exact List.map_congr_left fun e he => by rw [hkey e he]; rfl
    refine ⟨_, bind_eq_ok.mpr ⟨_, harrange, bind_eq_ok.mpr ⟨_, hfields, rfl⟩⟩, ?_⟩
    rw [Value.lists, hentries]
    refine readsAs_mapping ?_ ?_
    · have hkeys : es.map (fun e => Scalar.str e.1.name) = Entries.keys es :=
        List.map_congr_left fun e he => (hkey e he).symm
      refine List.Nodup.of_map Scalar.str ?_
      rw [List.map_map, List.map_map]
      exact hkeys ▸ named.nodup
    · rw [List.forall₂_map_left_iff, List.forall₂_map_right_iff, List.forall₂_same]
      intro e he
      exact ⟨(text e).toList, by simp, hreads e he⟩

/-- A text that is read as a value is parsed as it. -/
theorem ReadsAs.parse? {text : String} (h : ReadsAs text.toList v) :
    Json.parse? text = some v := by
  have hread := h.read (text.toList.length + 1) [] (Nat.le_succ _) ends_nil
  rw [List.append_nil] at hread
  simp only [Json.parse?, hread, Option.bind_eq_bind, Option.bind_some]
  rfl

end Json

end ApiSchema
