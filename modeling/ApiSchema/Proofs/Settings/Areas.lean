/-
What an area means.

An area is trimmed as a text and used as a path, and the two views have to agree.  White
space around an entry goes in both.  Slashes at its end are one thing in the text and
another one in the path, where they stand for names that are empty.  What joins the two
views is that cutting at slashes commutes with dropping at the end: the pieces of a text
without the slashes at its end are its pieces without the empty ones at their end
(`rdropWhile_pieces`).

There is one exception, an entry in which all names are empty.  Of its text too much is
dropped, since the slash behind the hash goes as well, and what is left is no pointer.
So such an entry is rejected as if it did not start with `#/`, although it does.
-/
import ApiSchema.Proofs.Settings
import Mathlib.Data.List.DropRight

namespace ApiSchema

/-! ### Dropping at the end -/

namespace Text

variable {separator c : Char} {p : Char → Bool} {cs ds : List Char}

theorem dropTrailing_concat (p : Char → Bool) (cs : List Char) (c : Char) :
    dropTrailing p (cs ++ [c]) = if p c = true then dropTrailing p cs else cs ++ [c] :=
  List.rdropWhile_concat p cs c

theorem dropTrailing_eq_nil_iff : dropTrailing p cs = [] ↔ ∀ c ∈ cs, p c = true :=
  List.rdropWhile_eq_nil_iff

/-- What stands in front is kept as long as something is left of what stands behind it. -/
theorem dropTrailing_append (cs : List Char) (h : dropTrailing p ds ≠ []) :
    dropTrailing p (cs ++ ds) = cs ++ dropTrailing p ds := by
  unfold dropTrailing at h ⊢
  rw [List.reverse_append, List.dropWhile_append, if_neg, List.reverse_append, List.reverse_reverse]
  intro hempty
  exact h (List.reverse_eq_nil_iff.mpr (List.isEmpty_iff.mp hempty))

theorem pieces_concat_separator (separator : Char) (cs : List Char) :
    pieces separator (cs ++ [separator]) = pieces separator cs ++ [[]] := pieces_append cs []

/-- A character that is no separator ends the last piece. -/
theorem exists_pieces_concat (h : c ≠ separator) (cs : List Char) :
    ∃ front piece, pieces separator (cs ++ [c]) = front ++ [piece ++ [c]] := by
  induction cs with
  | nil => exact ⟨[], [], pieces_of_not_mem (by simpa using Ne.symm h)⟩
  | cons d cs ih =>
    obtain ⟨front, piece, hpieces⟩ := ih
    rw [List.cons_append, pieces, hpieces]
    by_cases hd : d = separator
    · rw [if_pos hd]
      exact ⟨[] :: front, piece, rfl⟩
    · rw [if_neg hd]
      cases front with
      | nil => exact ⟨[], d :: piece, rfl⟩
      | cons first front => exact ⟨(d :: first) :: front, piece, rfl⟩

/-- Dropping the empty pieces at the end is dropping the separators at the end, unless the text has
nothing else. -/
theorem rdropWhile_pieces (h : dropTrailing (· = separator) cs ≠ []) :
    (pieces separator cs).rdropWhile List.isEmpty =
      pieces separator (dropTrailing (· = separator) cs) := by
  induction cs using List.reverseRecOn with
  | nil => exact absurd rfl h
  | append_singleton cs c ih =>
    rw [dropTrailing_concat] at h ⊢
    by_cases hc : c = separator
    · rw [if_pos (decide_eq_true hc)] at h ⊢
      rw [hc, pieces_concat_separator, List.rdropWhile_concat_pos _ _ _ rfl]
      exact ih h
    · rw [if_neg (by simpa using hc)]
      obtain ⟨front, piece, hpieces⟩ := exists_pieces_concat hc cs
      rw [hpieces]
      exact List.rdropWhile_concat_neg _ _ _ (by simp)

end Text

/-! ### The path of a pointer -/

namespace Pointer

variable {digit c : Char} {cs body : List Char} {text : String} {p : Pointer}

theorem unescapeWith_eq_nil_iff : unescapeWith digit c cs = [] ↔ cs = [] := by
  unfold unescapeWith
  split
  · split <;> simp
  · simp
  · simp

theorem decode_eq_nil_iff : decode cs = [] ↔ cs = [] := by
  rw [decode, unescapeWith_eq_nil_iff, unescapeWith_eq_nil_iff]

/-- The empty segments at the end of a pointer are the slashes at the end of its text. -/
theorem rdropWhile_segments (h : Text.dropTrailing (· = '/') body ≠ []) :
    ((Text.pieces '/' body).map fun piece => String.ofList (decode piece)).rdropWhile
        String.isEmpty =
      (Text.pieces '/' (Text.dropTrailing (· = '/') body)).map fun piece =>
        String.ofList (decode piece) := by
  have hempty : (String.isEmpty ∘ fun piece => String.ofList (decode piece)) = List.isEmpty := by
    funext piece
    rw [Bool.eq_iff_iff]
    simp [String.isEmpty_iff, List.isEmpty_iff, decode_eq_nil_iff]
  rw [← Text.rdropWhile_pieces h, List.rdropWhile, List.rdropWhile, ← List.map_reverse,
    List.dropWhile_map, hempty, List.map_reverse]

end Pointer

namespace Settings

variable {v : Value} {es : Entries} {kind : ArrayKind} {entry text ref : String}
  {texts areas : List String} {cause : SettingsError}

/-! ### Entries and areas -/

/-- The entry without the white space around it. -/
def trimmed (entry : String) : String := String.ofList (Text.trim entry.toList)

/-- Behind `#/` the text has slashes only. -/
def IsBare (text : String) : Prop :=
  ∃ slashes, text.toList = '#' :: '/' :: slashes ∧ ∀ c ∈ slashes, c = '/'

theorem toList_trimArea (entry : String) :
    (trimArea entry).toList = Text.dropTrailing (· = '/') (trimmed entry).toList := by
  rw [trimArea, trimmed, String.toList_ofList, String.toList_ofList]

/-- If more than slashes stands behind `#/`, the slashes at the end are those of what stands
there. -/
theorem toList_trimArea_of_local {body : List Char}
    (hbody : (trimmed entry).toList = '#' :: '/' :: body)
    (hleft : Text.dropTrailing (· = '/') body ≠ []) :
    (trimArea entry).toList = '#' :: '/' :: Text.dropTrailing (· = '/') body := by
  rw [toList_trimArea, hbody]
  exact Text.dropTrailing_append ['#', '/'] hleft

theorem isBare_iff {body : List Char} (hbody : text.toList = '#' :: '/' :: body) :
    IsBare text ↔ Text.dropTrailing (· = '/') body = [] := by
  rw [Text.dropTrailing_eq_nil_iff]
  simp only [decide_eq_true_eq]
  constructor
  · rintro ⟨slashes, hslashes, hall⟩
    rw [hbody] at hslashes
    obtain rfl := List.tail_eq_of_cons_eq (List.tail_eq_of_cons_eq hslashes)
    exact hall
  · intro hall
    exact ⟨body, hbody, hall⟩

/-- An entry gives an area if it starts with `#/` and has more than slashes behind that. -/
theorem isLocal_trimArea_iff :
    IsLocal (trimArea entry) ↔ IsLocal (trimmed entry) ∧ ¬ IsBare (trimmed entry) := by
  constructor
  · intro harea
    have htrimmed : IsLocal (trimmed entry) := by
      have hprefix : (trimArea entry).toList <+: (trimmed entry).toList := by
        rw [toList_trimArea]
        exact List.rdropWhile_prefix _ _
      exact harea.trans hprefix
    refine ⟨htrimmed, fun hbare => ?_⟩
    obtain ⟨slashes, hslashes, hall⟩ := hbare
    -- Of a bare text only the hash is left.
    have hhash : (trimArea entry).toList = ['#'] := by
      have hnone : Text.dropTrailing (· = '/') ('/' :: slashes) = [] := by
        rw [Text.dropTrailing_eq_nil_iff]
        simpa using hall
      rw [toList_trimArea, hslashes]
      unfold Text.dropTrailing at hnone ⊢
      rw [List.reverse_cons, List.dropWhile_append, if_pos]
      · rfl
      · exact List.isEmpty_iff.mpr (List.reverse_eq_nil_iff.mp hnone)
    have hlength := harea.length_le
    rw [hhash] at hlength
    exact absurd hlength (by decide)
  · rintro ⟨⟨body, hbody⟩, hbare⟩
    replace hbody : (trimmed entry).toList = '#' :: '/' :: body := hbody.symm
    have hleft := mt (isBare_iff hbody).mpr hbare
    rw [IsLocal, toList_trimArea_of_local hbody hleft]
    exact ⟨_, rfl⟩

/-- The area has the path of the trimmed entry, without the empty names at its end. -/
theorem segments_trimArea (h : IsLocal (trimArea entry)) :
    ∃ p q, Pointer.parse? (trimmed entry) = some p ∧ Pointer.parse? (trimArea entry) = some q ∧
      q.segments = p.segments.rdropWhile String.isEmpty := by
  obtain ⟨⟨body, hbody⟩, hbare⟩ := isLocal_trimArea_iff.mp h
  replace hbody : (trimmed entry).toList = '#' :: '/' :: body := hbody.symm
  have hleft := mt (isBare_iff hbody).mpr hbare
  refine ⟨_, _, Pointer.parse?_eq_some_iff.mpr ⟨body, hbody, rfl⟩, Pointer.parse?_eq_some_iff.mpr
    ⟨_, toList_trimArea_of_local hbody hleft, rfl⟩, ?_⟩
  exact (Pointer.rdropWhile_segments hleft).symm

theorem givesArea_iff {area : String} :
    GivesArea entry area ↔ IsLocal (trimArea entry) ∧ trimArea entry = area := by
  constructor
  · rintro ⟨htrimmed, hstarts⟩
    obtain rfl := trimArea_eq_iff.mpr htrimmed
    exact ⟨hstarts, rfl⟩
  · rintro ⟨hstarts, rfl⟩
    exact ⟨trimArea_eq_iff.mp rfl, hstarts⟩

/-- The areas that are accepted are the trimmed entries, in order. -/
theorem forall₂_givesArea_iff : List.Forall₂ GivesArea texts areas ↔
    (∀ entry ∈ texts, IsLocal (trimArea entry)) ∧ areas = texts.map trimArea := by
  have hmember : GivesArea = fun entry area =>
      IsLocal (trimArea entry) ∧ trimArea entry = area := by
    funext entry area
    exact propext givesArea_iff
  rw [hmember, List.forall₂_and_left]
  refine and_congr_right fun _ => ?_
  rw [← List.forall₂_map_left_iff (R := Eq), List.forall₂_eq_eq_eq, eq_comm]

/-! ### Which references are below -/

/-- The path of the reference goes on from the path of the trimmed entry, of which the empty names
at the end do not count. -/
def LeadsBelowEntry (entry ref : String) : Prop :=
  ∃ p q name rest, Pointer.parse? ref = some p ∧ Pointer.parse? (trimmed entry) = some q ∧
    p.segments = q.segments.rdropWhile String.isEmpty ++ name :: rest

theorem leadsBelow_iff (h : ∀ entry ∈ texts, IsLocal (trimArea entry)) :
    LeadsBelow (texts.map trimArea) ref ↔ ∃ entry ∈ texts, LeadsBelowEntry entry ref := by
  constructor
  · rintro ⟨p, hp, area, harea, q, hq, name, rest, hpath⟩
    obtain ⟨entry, hentry, rfl⟩ := List.mem_map.mp harea
    obtain ⟨q', q'', hq', hq'', hsegments⟩ := segments_trimArea (h entry hentry)
    obtain rfl := Option.some.inj (hq.symm.trans hq'')
    exact ⟨entry, hentry, p, q', name, rest, hp, hq', hsegments ▸ hpath⟩
  · rintro ⟨entry, hentry, p, q, name, rest, hp, hq, hpath⟩
    obtain ⟨q', q'', hq', hq'', hsegments⟩ := segments_trimArea (h entry hentry)
    obtain rfl := Option.some.inj (hq.symm.trans hq')
    exact ⟨p, hp, _, List.mem_map_of_mem hentry, q'', hq'', name, rest, hsegments ▸ hpath⟩

/-! ### Which entries are rejected -/

theorem readArea_str_error_iff :
    readArea (.str text) = .error cause ↔
      ¬ IsLocal (trimArea text) ∧ cause = .areaNotLocal text := by
  have hread : readArea (.str text) = if Pointer.localStart.toList.isPrefixOf (trimArea text).toList
      then .ok (trimArea text) else .error (.areaNotLocal text) := rfl
  rw [hread, IsLocal, ← List.isPrefixOf_iff_prefix]
  split
  · next h => simp [h]
  · next h => simp [h, eq_comm]

theorem exists_readArea_str_ok_iff :
    (∃ area, readArea (.str text) = .ok area) ↔ IsLocal (trimArea text) := by
  constructor
  · rintro ⟨area, harea⟩
    by_contra hnot
    rw [readArea_str_error_iff.mpr ⟨hnot, rfl⟩] at harea
    simp at harea
  · intro h
    exact ⟨trimArea text, readArea_str_ok_iff.mpr ⟨trimArea_eq_iff.mp rfl, h⟩⟩

/-- A list is rejected for the form of an entry when its entries are read. -/
theorem readAreas_areaNotLocal_iff {items : List Value} :
    readAreas (.array kind items) = .error (.areaNotLocal text) ↔
      items.mapM readArea = .error (.areaNotLocal text) := by
  rw [readAreas, bind_eq_error]
  constructor
  · rintro (hentries | ⟨items', hentries, hrest⟩)
    · simp [areaEntries] at hentries
    obtain rfl := Except.ok.inj hentries
    rcases bind_eq_error.mp hrest with h | ⟨areas, -, hempty⟩
    · exact h
    · -- A list without entries is rejected as such.
      split at hempty
      · simp [throw, throwThe, MonadExceptOf.throw] at hempty
      · simp [pure, Except.pure] at hempty
  · intro h
    exact .inr ⟨items, rfl, bind_eq_error.mpr (.inl h)⟩

/-- The first entry that gives no area is the one that is reported. -/
theorem readAreas_error_iff :
    readAreas (.array kind (texts.map .str)) = .error (.areaNotLocal text) ↔
      ∃ before after, texts = before ++ text :: after ∧
        (∀ entry ∈ before, IsLocal (trimArea entry)) ∧ ¬ IsLocal (trimArea text) := by
  rw [readAreas_areaNotLocal_iff, List.mapM_map, mapM_eq_error_iff]
  simp only [Function.comp_apply, exists_readArea_str_ok_iff, readArea_str_error_iff,
    SettingsError.areaNotLocal.injEq]
  constructor
  · rintro ⟨before, entry, after, rfl, hbefore, hentry, rfl⟩
    exact ⟨before, after, rfl, hbefore, hentry⟩
  · rintro ⟨before, after, rfl, hbefore, htext⟩
    exact ⟨before, text, after, rfl, hbefore, htext, rfl⟩

theorem exists_readAreas_error_iff :
    (∃ text, readAreas (.array kind (texts.map .str)) = .error (.areaNotLocal text)) ↔
      ∃ entry ∈ texts, ¬ IsLocal (trimArea entry) := by
  constructor
  · rintro ⟨text, htext⟩
    obtain ⟨before, after, rfl, -, hnot⟩ := readAreas_error_iff.mp htext
    exact ⟨text, by simp, hnot⟩
  · rintro ⟨entry, hentry, hnot⟩
    rcases passes_or_fails (fun entry => readArea (.str entry)) texts with
      hall | ⟨before, first, after, cause, hsplit, hbefore, hfirst⟩
    · exact absurd (exists_readArea_str_ok_iff.mp (hall entry hentry)) hnot
    · refine ⟨first, readAreas_error_iff.mpr ⟨before, after, hsplit, fun x hx => ?_, ?_⟩⟩
      · exact exists_readArea_str_ok_iff.mp (hbefore x hx)
      · exact (readArea_str_error_iff.mp hfirst).1

/-! ### Lists of entries -/

theorem str_injective : Function.Injective Value.str := by
  intro text other h
  exact Scalar.str.inj (Value.scalar.inj h)

theorem Lists.unique {others : List String} (h : Lists v texts) (hothers : Lists v others) :
    texts = others := by
  have hentries := (lists_iff.mp h).1.symm.trans (lists_iff.mp hothers).1
  exact str_injective.list_map (Except.ok.inj hentries)

/-- A list of entries is accepted if each of them gives an area, and these are its areas. -/
theorem Lists.readAreas_ok_iff (h : Lists v texts) : readAreas v = .ok areas ↔
    (∀ entry ∈ texts, IsLocal (trimArea entry)) ∧ areas = texts.map trimArea := by
  rw [Settings.readAreas_ok_iff, GivesAreas, ← forall₂_givesArea_iff]
  constructor
  · rintro ⟨others, hothers, hareas⟩
    obtain rfl := h.unique hothers
    exact hareas
  · intro hareas
    exact ⟨texts, h, hareas⟩

theorem lists_of_readAreas (h : readAreas (.array kind (texts.map .str)) = .ok areas) :
    Lists (.array kind (texts.map .str)) texts := by
  rw [lists_iff]
  refine ⟨rfl, ?_⟩
  rintro rfl
  -- Without entries there are no areas, and that is not accepted.
  simp [readAreas, areaEntries, bind, Except.bind, throw, throwThe, MonadExceptOf.throw,
    pure, Except.pure] at h

/-! ### What the other settings report -/

theorem readSection_error {name : String} (h : readSection es name = .error cause) :
    cause = .sectionNotMapping name := by
  unfold readSection at h
  split at h
  · simp at h
  · simp at h
  · simp at h
  · exact (Except.error.inj h).symm

theorem readSetting_error {α : Type} {default : α} {key : String}
    {read : Value → Except SettingsError α} (h : readSetting es key default read = .error cause) :
    ∃ w, Entries.get? es key = some w ∧ read w = .error cause := by
  unfold readSetting at h
  split at h
  · next w hw => exact ⟨w, hw, h⟩
  · simp at h

theorem readBool_error {name : String} (h : readBool name v = .error cause) :
    cause = .notBoolean name := by
  unfold readBool at h
  split at h
  · simp at h
  · exact (Except.error.inj h).symm

theorem readPositive_error {name : String} (h : readPositive name v = .error cause) :
    cause = .notPositive name ∨ cause = .notInteger name := by
  unfold readPositive at h
  split at h
  · split at h
    · simp at h
    · exact .inl (Except.error.inj h).symm
  · exact .inr (Except.error.inj h).symm

theorem readOutput_error (h : readOutput es = .error cause) :
    ∀ text, cause ≠ .areaNotLocal text := by
  rintro text rfl
  rcases bind_eq_error.mp h with hsection | ⟨entries, -, hrest⟩
  · simpa using readSection_error hsection
  rcases bind_eq_error.mp hrest with hindent | ⟨indent, -, hrest⟩
  · obtain ⟨w, -, hw⟩ := readSetting_error hindent
    simpa using readPositive_error hw
  rcases bind_eq_error.mp hrest with hkeys | ⟨sortKeys, -, hdone⟩
  · obtain ⟨w, -, hw⟩ := readSetting_error hkeys
    simpa using readBool_error hw
  · simp [pure, Except.pure] at hdone

/-- Where something stands inside, there is a section. -/
theorem isSection_of_at? {name key : String} {w : Value}
    (h : v.at? [name, key] = some w) : IfPresent v [name] IsSection := by
  intro u hu
  have hsplit := Value.at?_append v [name] [key]
  rw [hu, Option.bind_some] at hsplit
  have hw : u.at? [key] = some w := hsplit.symm.trans h
  cases u with
  | scalar s => simp [at?_scalar] at hw
  | array kind items => simp [Value.at?, Value.child?] at hw
  | mapping entries => exact .inr ⟨entries, rfl⟩

/-- Settings are rejected for the form of an entry if their areas are. -/
theorem ofValue_areaNotLocal_iff : ofValue v = .error (.areaNotLocal text) ↔
    ∃ w, v.at? ["references", "supported_prefixes"] = some w ∧
      readAreas w = .error (.areaNotLocal text) := by
  constructor
  · intro h
    unfold ofValue at h
    split at h
    · simp at h
    · next root =>
      rcases bind_eq_error.mp h with hreferences | ⟨references, -, hrest⟩
      · rcases bind_eq_error.mp hreferences with hsection | ⟨entries, hsection, hrest⟩
        · exact absurd (readSection_error hsection) (by simp)
        rcases bind_eq_error.mp hrest with hareas | ⟨areas, -, hrest⟩
        · obtain ⟨w, hw, hread⟩ := readSetting_error hareas
          exact ⟨w, (get?_of_readSection hsection _).symm.trans hw, hread⟩
        rcases bind_eq_error.mp hrest with hinline | ⟨inline, -, hdone⟩
        · obtain ⟨w, -, hw⟩ := readSetting_error hinline
          exact absurd (readBool_error hw) (by simp)
        · simp [pure, Except.pure] at hdone
      · rcases bind_eq_error.mp hrest with houtput | ⟨output, -, hdone⟩
        · exact absurd rfl (readOutput_error houtput text)
        · simp [pure, Except.pure] at hdone
    · simp at h
  · rintro ⟨w, hw, hread⟩
    cases v with
    | scalar s => simp [at?_scalar] at hw
    | array kind items => simp [Value.at?, Value.child?] at hw
    | mapping root =>
      -- Something stands in the section, so it is a mapping and is read.
      obtain ⟨entries, hsection⟩ := exists_readSection_iff.mpr (isSection_of_at? hw)
      have hareas : readSetting entries "supported_prefixes" defaultAreas readAreas =
          .error (.areaNotLocal text) := by
        rw [readSetting, get?_of_readSection hsection, hw]
        exact hread
      have hreferences : readReferences root = .error (.areaNotLocal text) :=
        bind_eq_error.mpr (.inr ⟨entries, hsection, bind_eq_error.mpr (.inl hareas)⟩)
      exact bind_eq_error.mpr (.inl hreferences)

/-! ### Entries and what they mean -/

/-- **An area means what its entry says.**  A list of entries is rejected for the form of an entry
if one of them does not start with `#/` when it is trimmed, or has nothing but slashes behind that,
and the first such entry is reported, whatever else the settings are.  From a list that is accepted
come areas below which a reference leads exactly if its path goes on from the path of a trimmed
entry, of which the empty names at the end do not count. -/
theorem area_of_entry (kind : ArrayKind) (texts : List String) :
    ((∃ text, readAreas (.array kind (texts.map .str)) = .error (.areaNotLocal text)) ↔
      ∃ text ∈ texts, ¬ IsLocal (trimmed text) ∨ IsBare (trimmed text)) ∧
    (∀ text, readAreas (.array kind (texts.map .str)) = .error (.areaNotLocal text) ↔
      ∃ before after, texts = before ++ text :: after ∧
        (∀ entry ∈ before, IsLocal (trimmed entry) ∧ ¬ IsBare (trimmed entry)) ∧
        (¬ IsLocal (trimmed text) ∨ IsBare (trimmed text))) ∧
    (∀ v text, v.at? ["references", "supported_prefixes"] = some (.array kind (texts.map .str)) →
      (ofValue v = .error (.areaNotLocal text) ↔
        readAreas (.array kind (texts.map .str)) = .error (.areaNotLocal text))) ∧
    ∀ areas, readAreas (.array kind (texts.map .str)) = .ok areas → ∀ ref,
      (∃ p, supportedPointer areas ref = .ok p) ↔ ∃ entry ∈ texts, LeadsBelowEntry entry ref := by
  have hreject (entry : String) :
      ¬ IsLocal (trimArea entry) ↔ ¬ IsLocal (trimmed entry) ∨ IsBare (trimmed entry) := by
    rw [isLocal_trimArea_iff, not_and_or, not_not]
  refine ⟨?_, fun text => ?_, fun v text hv => ?_, fun areas hareas ref => ?_⟩
  · simp only [exists_readAreas_error_iff, hreject]
  · simp only [readAreas_error_iff, hreject, ← isLocal_trimArea_iff]
  · rw [ofValue_areaNotLocal_iff, hv]
    simp
  · obtain ⟨hlocal, rfl⟩ := (lists_of_readAreas hareas).readAreas_ok_iff.mp hareas
    rw [← leadsBelow_iff hlocal]
    constructor
    · rintro ⟨p, hp⟩
      exact (supportedPointer_ok_iff.mp hp).1.below
    · intro hbelow
      obtain ⟨p, hp, -⟩ := id hbelow
      refine ⟨p, supportedPointer_ok_iff.mpr ⟨⟨?_, ?_, hbelow⟩, hp⟩⟩
      · exact Pointer.exists_parse?_iff.mp ⟨p, hp⟩
      · simpa using hlocal

namespace Slashed

/-- Entries with spaces around them and with slashes at their end.  The space of the second one is
part of its last name. -/
def entries : List String := ["\t#/definitions// ", "#/a~1b /"]

/-- The areas that they give. -/
def places : List String := ["#/definitions", "#/a~1b "]

end Slashed

/-- The entries are accepted, and a reference leads below the second one if it has the space.  With
an entry in front of them that is no pointer, it is this one that is reported. -/
theorem area_of_entry_slashed :
    (∃ entry ∈ Slashed.entries, LeadsBelowEntry entry "#/a~1b /c") ∧
      (¬ ∃ entry ∈ Slashed.entries, LeadsBelowEntry entry "#/a~1b/c") ∧
      readAreas (.array .list (("definitions" :: Slashed.entries).map .str)) =
        .error (.areaNotLocal "definitions") := by
  have haccepted : readAreas (.array .list (Slashed.entries.map .str)) = .ok Slashed.places := by
    decide +kernel
  obtain ⟨-, -, -, hmeans⟩ := area_of_entry .list Slashed.entries
  obtain ⟨-, hfirst, -, -⟩ := area_of_entry .list ("definitions" :: Slashed.entries)
  have hbelow := hmeans Slashed.places haccepted
  refine ⟨(hbelow _).mp ⟨⟨"#/a~1b /c", ["a/b ", "c"]⟩, by decide +kernel⟩, fun h => ?_,
    (hfirst _).mpr ⟨[], Slashed.entries, rfl, by simp, .inl ?_⟩⟩
  · obtain ⟨p, hp⟩ := (hbelow "#/a~1b/c").mpr h
    have hrefused : supportedPointer Slashed.places "#/a~1b/c" =
        .error (.outsideAreas "#/a~1b/c" Slashed.places) := by
      decide +kernel
    simp [hrefused] at hp
  · unfold IsLocal
    decide +kernel

/-- An entry that starts with `#/` is rejected because it does not. -/
theorem readAreas_rejects_bare :
    readAreas (.array .list (["#/"].map .str)) = .error (.areaNotLocal "#/") ∧
      IsLocal (trimmed "#/") ∧ (SettingsError.areaNotLocal "#/").message =
        "references.supported_prefixes entry '#/' must start with '#/'." := by
  refine ⟨by decide +kernel, ?_, by decide +kernel⟩
  unfold IsLocal
  decide +kernel

end Settings

end ApiSchema
