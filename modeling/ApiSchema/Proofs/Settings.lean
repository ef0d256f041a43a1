/-
Which settings a file may give, and what they come to.

A setting has a place: the name of its section and its own name.  What stands at the
place is the setting, and if nothing stands there the setting has its default
(`SettingAt`).  So a value is described by what stands at four places, and by the root
and the two sections being open to settings at all; nothing else in it matters, and no
setting is read at the place of another one.

The areas are the setting that is used later on.  They are trimmed and checked here
once, so when references are followed only the reference can be at fault.
-/
import ApiSchema.Proofs.Files.Run
import ApiSchema.Proofs.Reference.Resolution
import ApiSchema.Proofs.Text.Trimming
import ApiSchema.Settings.Loading
import ApiSchema.Yaml.Loader

namespace ApiSchema.Settings

variable {v w : Value} {es entries : Entries} {place : List String} {α : Type} {a b default : α}
  {means : Value → α → Prop} {text area name : String} {texts areas : List String}

/-! ### What stands where -/

/-- Settings may stand in the value: it is a mapping, or null, in which there are none. -/
def IsSection (v : Value) : Prop := v = .null ∨ ∃ es, v = .mapping es

/-- What stands at the place, if anything does, has the property. -/
def IfPresent (v : Value) (place : List String) (P : Value → Prop) : Prop :=
  ∀ w, v.at? place = some w → P w

/-- The setting at the place: what the value there means, or the default if nothing is there. -/
inductive SettingAt (v : Value) (place : List String) (default : α) (means : Value → α → Prop) :
    α → Prop
  /-- Nothing is there. -/
  | absent (h : v.at? place = none) : SettingAt v place default means default
  /-- The setting is given. -/
  | given {w : Value} {a : α} (h : v.at? place = some w) (hmeans : means w a) :
      SettingAt v place default means a

theorem exists_settingAt_iff :
    (∃ a, SettingAt v place default means a) ↔ IfPresent v place fun w => ∃ a, means w a := by
  constructor
  · rintro ⟨_, h | ⟨hw, hmeans⟩⟩ w' hw'
    · rw [h] at hw'
      simp at hw'
    · obtain rfl := Option.some.inj (hw.symm.trans hw')
      exact ⟨_, hmeans⟩
  · intro h
    cases hat : v.at? place with
    | none => exact ⟨default, .absent hat⟩
    | some w =>
      obtain ⟨a, hmeans⟩ := h w hat
      exact ⟨a, .given hat hmeans⟩

/-- The same value at the same place is the same setting. -/
theorem SettingAt.unique (ha : SettingAt v place default means a)
    (hb : SettingAt w place default means b)
    (hmeans : ∀ {u a b}, means u a → means u b → a = b) (hat : v.at? place = w.at? place) :
    a = b := by
  cases ha with
  | absent hv =>
    cases hb with
    | absent _ => rfl
    | given hw _ => simp [← hat, hv] at hw
  | given hv hmeansa =>
    cases hb with
    | absent hw => simp [hat, hw] at hv
    | given hw hmeansb =>
      obtain rfl := Option.some.inj (hv.symm.trans (hat.trans hw))
      exact hmeans hmeansa hmeansb

/-- A setting is read from the entries of its section. -/
theorem readSetting_ok_iff {key : String} {read : Value → Except SettingsError α}
    (hentries : Entries.get? entries key = v.at? place)
    (hread : ∀ w a, read w = .ok a ↔ means w a) :
    readSetting entries key default read = .ok a ↔ SettingAt v place default means a := by
  rw [readSetting, hentries]
  constructor
  · intro h
    split at h
    · next hat => exact .given hat ((hread _ _).mp h)
    · next hat =>
      obtain rfl := Except.ok.inj h
      exact .absent hat
  · rintro (h | ⟨h, hmeans⟩)
    · rw [h]
    · rw [h]
      exact (hread _ _).mpr hmeans

theorem at?_section : (Value.mapping es).at? [name] = Entries.get? es name := by
  rw [Document.at?_cons]
  exact Option.bind_fun_some _

/-- A section is read if settings may stand in it. -/
theorem exists_readSection_iff : (∃ entries, readSection es name = .ok entries) ↔
    IfPresent (.mapping es) [name] IsSection := by
  simp only [IfPresent, at?_section, readSection]
  cases Entries.get? es name with
  | none => simp
  | some w =>
    cases w with
    | scalar s => cases s <;> simp [IsSection]
    | array kind items => simp [IsSection]
    | mapping entries => simp [IsSection]

/-- The settings of a section that is read are found at their places. -/
theorem get?_of_readSection (h : readSection es name = .ok entries) (key : String) :
    Entries.get? entries key = (Value.mapping es).at? [name, key] := by
  rw [Document.at?_cons, Value.child?]
  rw [readSection] at h
  split at h
  · next hnone =>
    obtain rfl := Except.ok.inj h
    rw [hnone, Option.bind_none, Entries.get?_nil]
  · next hnull =>
    obtain rfl := Except.ok.inj h
    rw [hnull, Option.bind_some, Entries.get?_nil]
    rfl
  · next hmapping =>
    obtain rfl := Except.ok.inj h
    rw [hmapping, Option.bind_some, at?_section]
  · simp at h

/-! ### Areas -/

/-- The area that a text stands for.  The white space around the text goes first, and then the
slashes at the end of what is left. -/
structure GivesArea (text area : String) : Prop where
  /-- What is left of the text. -/
  trimmed : ∃ inner, Text.TrimmedAround Text.isBlank text.toList inner ∧
    Text.TrimmedBehind (· = '/') inner area.toList
  /-- It starts as a local pointer does. -/
  starts : IsLocal area

/-- The texts that a value lists: a text lists itself, and an array its members, which all have to
be texts and of which there has to be one. -/
inductive Lists : Value → List String → Prop
  /-- A single text. -/
  | single (text : String) : Lists (.str text) [text]
  /-- An array of texts. -/
  | array (kind : ArrayKind) {texts : List String} (h : texts ≠ []) :
      Lists (.array kind (texts.map .str)) texts

/-- The value lists texts that stand for these areas, in order. -/
def GivesAreas (v : Value) (areas : List String) : Prop :=
  ∃ texts, Lists v texts ∧ List.Forall₂ GivesArea texts areas

theorem trimArea_eq_iff : trimArea text = area ↔ ∃ inner,
    Text.TrimmedAround Text.isBlank text.toList inner ∧
      Text.TrimmedBehind (· = '/') inner area.toList := by
  simp only [← Text.trimWhere_eq_iff, ← Text.dropTrailing_eq_iff, exists_eq_left']
  rw [trimArea, ← String.toList_inj, String.toList_ofList, Text.trim]

theorem readArea_str_ok_iff : readArea (.str text) = .ok area ↔ GivesArea text area := by
  have hread : readArea (.str text) = if Pointer.localStart.toList.isPrefixOf (trimArea text).toList
      then .ok (trimArea text) else .error (.areaNotLocal text) := rfl
  rw [hread]
  constructor
  · intro h
    split at h
    · next hstarts =>
      obtain rfl := Except.ok.inj h
      exact ⟨trimArea_eq_iff.mp rfl, List.isPrefixOf_iff_prefix.mp hstarts⟩
    · simp at h
  · rintro ⟨htrimmed, hstarts⟩
    rw [trimArea_eq_iff.mpr htrimmed, if_pos (List.isPrefixOf_iff_prefix.mpr hstarts)]

theorem readArea_ok_iff : readArea v = .ok area ↔ ∃ text, v = .str text ∧ GivesArea text area := by
  constructor
  · intro h
    have htext : ∃ text, v = .str text := by
      unfold readArea at h
      split at h
      · exact ⟨_, rfl⟩
      · simp at h
    obtain ⟨text, rfl⟩ := htext
    exact ⟨text, rfl, readArea_str_ok_iff.mp h⟩
  · rintro ⟨text, rfl, harea⟩
    exact readArea_str_ok_iff.mpr harea

theorem mapM_readArea_ok_iff {items : List Value} : items.mapM readArea = .ok areas ↔
    ∃ texts, items = texts.map .str ∧ List.Forall₂ GivesArea texts areas := by
  rw [mapM_eq_ok_iff]
  constructor
  · intro h
    induction h with
    | nil => exact ⟨[], rfl, .nil⟩
    | cons hitem _ ih =>
      obtain ⟨text, rfl, harea⟩ := readArea_ok_iff.mp hitem
      obtain ⟨texts, rfl, hareas⟩ := ih
      exact ⟨text :: texts, rfl, .cons harea hareas⟩
  · rintro ⟨texts, rfl, h⟩
    rw [List.forall₂_map_left_iff]
    exact h.imp fun text area harea => readArea_ok_iff.mpr ⟨text, rfl, harea⟩

/-- The entries of a byte string are numbers, so it lists no texts. -/
theorem lists_iff : Lists v texts ↔ areaEntries v = .ok (texts.map .str) ∧ texts ≠ [] := by
  constructor
  · rintro (text | ⟨kind, hne⟩)
    · exact ⟨rfl, by simp⟩
    · exact ⟨rfl, hne⟩
  · rintro ⟨hentries, hne⟩
    unfold areaEntries at hentries
    split at hentries
    · next text =>
      obtain ⟨_, rfl, htext⟩ := List.map_eq_singleton_iff.mp (Except.ok.inj hentries).symm
      obtain rfl := Scalar.str.inj (Value.scalar.inj htext)
      exact .single _
    · next bytes =>
      have hsame := congrArg List.head? (Except.ok.inj hentries)
      cases texts with
      | nil => exact absurd rfl hne
      | cons first rest => cases bytes <;> simp at hsame
    · next kind items =>
      obtain rfl := Except.ok.inj hentries
      exact .array kind hne
    · simp at hentries

theorem readAreas_ok_iff : readAreas v = .ok areas ↔ GivesAreas v areas := by
  have hread : readAreas v = .ok areas ↔ ∃ items, areaEntries v = .ok items ∧
      items.mapM readArea = .ok areas ∧ areas ≠ [] := by
    rw [readAreas, bind_eq_ok]
    refine exists_congr fun items => and_congr_right fun _ => ?_
    rw [bind_eq_ok]
    constructor
    · rintro ⟨read, hread, hrest⟩
      split at hrest
      · simp [throw, throwThe, MonadExceptOf.throw] at hrest
      · next hne =>
        obtain rfl := Except.ok.inj hrest
        exact ⟨hread, by simpa using hne⟩
    · rintro ⟨hread, hne⟩
      exact ⟨areas, hread, if_neg (by simpa using hne)⟩
  simp only [hread, mapM_readArea_ok_iff, GivesAreas, lists_iff]
  constructor
  · rintro ⟨_, hentries, ⟨texts, rfl, hareas⟩, hne⟩
    refine ⟨texts, ⟨hentries, ?_⟩, hareas⟩
    rintro rfl
    exact hne (List.forall₂_nil_left_iff.mp hareas)
  · rintro ⟨texts, ⟨hentries, hne⟩, hareas⟩
    refine ⟨_, hentries, ⟨texts, rfl, hareas⟩, ?_⟩
    rintro rfl
    exact hne (List.forall₂_nil_right_iff.mp hareas)

/-! ### Single settings -/

/-- The value is this truth value. -/
def GivesBool (v : Value) (b : Bool) : Prop := v = .bool b

/-- The value is this number, which is at least one.  A truth value is no number. -/
def GivesPositive (v : Value) (n : Nat) : Prop := 1 ≤ n ∧ v = .scalar (.int n)

theorem readBool_ok_iff {b : Bool} : readBool name v = .ok b ↔ GivesBool v b := by
  unfold readBool GivesBool
  split
  · simp
  · next hother =>
    refine iff_of_false (by simp) ?_
    rintro rfl
    exact hother b rfl

theorem readPositive_ok_iff {n : Nat} : readPositive name v = .ok n ↔ GivesPositive v n := by
  unfold readPositive GivesPositive
  split
  · next k =>
    rw [Value.scalar.injEq, Scalar.int.injEq]
    split
    · rw [Except.ok.injEq]
      omega
    · refine iff_of_false (by simp) ?_
      omega
  · next hother =>
    refine iff_of_false (by simp) ?_
    rintro ⟨-, rfl⟩
    exact hother n rfl

/-! ### All settings -/

/-- The section about references, as the value gives it. -/
structure GivesReferences (v : Value) (settings : ReferenceSettings) : Prop where
  /-- The section may hold settings. -/
  opens : IfPresent v ["references"] IsSection
  /-- The areas in their order, trimmed. -/
  areas : SettingAt v ["references", "supported_prefixes"] defaultAreas GivesAreas settings.areas
  /-- A truth value. -/
  inline : SettingAt v ["references", "inline"] false GivesBool settings.inline

/-- The section about output, as the value gives it. -/
structure GivesOutput (v : Value) (settings : OutputSettings) : Prop where
  /-- The section may hold settings. -/
  opens : IfPresent v ["output"] IsSection
  /-- A number that is at least one. -/
  indent : SettingAt v ["output", "indent"] 2 GivesPositive settings.indent
  /-- A truth value. -/
  sortKeys : SettingAt v ["output", "sort_keys"] false GivesBool settings.sortKeys

/-- The settings that a value gives: at each place the one that is given there, or its default. -/
structure Gives (v : Value) (settings : Settings) : Prop where
  /-- The root may hold settings. -/
  root : IsSection v
  /-- The section about references. -/
  references : GivesReferences v settings.references
  /-- The section about output. -/
  output : GivesOutput v settings.output

/-- A section of two settings is read if it may hold settings and gives both of them. -/
theorem section_ok_iff {β γ σ : Type} {first second : String} {b default : β} {c default' : γ}
    {read : Value → Except SettingsError β} {read' : Value → Except SettingsError γ}
    {means : Value → β → Prop} {means' : Value → γ → Prop} (make : β → γ → σ)
    (hmake : ∀ {b b' c c'}, make b c = make b' c' → b = b' ∧ c = c')
    (hread : ∀ w b, read w = .ok b ↔ means w b) (hread' : ∀ w c, read' w = .ok c ↔ means' w c) :
    (do
      let entries ← readSection es name
      let b ← readSetting entries first default read
      let c ← readSetting entries second default' read'
      return make b c) = .ok (make b c) ↔
      IfPresent (.mapping es) [name] IsSection ∧
        SettingAt (.mapping es) [name, first] default means b ∧
        SettingAt (.mapping es) [name, second] default' means' c := by
  constructor
  · intro h
    obtain ⟨entries, hsection, hrest⟩ := bind_eq_ok.mp h
    obtain ⟨b', hb, hrest⟩ := bind_eq_ok.mp hrest
    obtain ⟨c', hc, hrest⟩ := bind_eq_ok.mp hrest
    obtain ⟨rfl, rfl⟩ := hmake (Except.ok.inj hrest)
    have hget := get?_of_readSection hsection
    exact ⟨exists_readSection_iff.mp ⟨entries, hsection⟩,
      (readSetting_ok_iff (hget first) hread).mp hb, (readSetting_ok_iff (hget second) hread').mp hc⟩
  · rintro ⟨hopens, hb, hc⟩
    obtain ⟨entries, hsection⟩ := exists_readSection_iff.mpr hopens
    have hget := get?_of_readSection hsection
    refine bind_eq_ok.mpr ⟨entries, hsection, bind_eq_ok.mpr ⟨b, ?_, bind_eq_ok.mpr ⟨c, ?_, rfl⟩⟩⟩
    · exact (readSetting_ok_iff (hget first) hread).mpr hb
    · exact (readSetting_ok_iff (hget second) hread').mpr hc

theorem readReferences_ok_iff {settings : ReferenceSettings} :
    readReferences es = .ok settings ↔ GivesReferences (.mapping es) settings := by
  rw [readReferences]
  refine (section_ok_iff ReferenceSettings.mk ReferenceSettings.mk.inj
    (fun w areas => readAreas_ok_iff (v := w)) fun w b => readBool_ok_iff (v := w)).trans ?_
  exact ⟨fun ⟨h, hareas, hinline⟩ => ⟨h, hareas, hinline⟩,
    fun ⟨h, hareas, hinline⟩ => ⟨h, hareas, hinline⟩⟩

theorem readOutput_ok_iff {settings : OutputSettings} :
    readOutput es = .ok settings ↔ GivesOutput (.mapping es) settings := by
  rw [readOutput]
  refine (section_ok_iff OutputSettings.mk OutputSettings.mk.inj
    (fun w n => readPositive_ok_iff (v := w)) fun w b => readBool_ok_iff (v := w)).trans ?_
  exact ⟨fun ⟨h, hindent, hkeys⟩ => ⟨h, hindent, hkeys⟩,
    fun ⟨h, hindent, hkeys⟩ => ⟨h, hindent, hkeys⟩⟩

theorem at?_scalar {s : Scalar} : (Value.scalar s).at? (name :: place) = none :=
  Document.at?_cons _ _ _

/-- A value without content gives the defaults. -/
theorem gives_null_iff {settings : Settings} : Gives .null settings ↔ settings = {} := by
  have habsent {α : Type} {default a : α} {means : Value → α → Prop} (outer key : String) :
      SettingAt .null [outer, key] default means a ↔ a = default := by
    constructor
    · rintro (_ | ⟨h, _⟩)
      · rfl
      · simp [at?_scalar] at h
    · rintro rfl
      exact .absent at?_scalar
  have hopens (name : String) : IfPresent .null [name] IsSection := by simp [IfPresent, at?_scalar]
  constructor
  · rintro ⟨-, ⟨-, hareas, hinline⟩, -, hindent, hkeys⟩
    rw [habsent] at hareas hinline hindent hkeys
    obtain ⟨⟨areas, inline⟩, ⟨indent, sortKeys⟩⟩ := settings
    obtain rfl : areas = defaultAreas := hareas
    obtain rfl : inline = false := hinline
    obtain rfl : indent = 2 := hindent
    obtain rfl : sortKeys = false := hkeys
    rfl
  · rintro rfl
    exact ⟨.inl rfl, ⟨hopens _, (habsent _ _).mpr rfl, (habsent _ _).mpr rfl⟩,
      hopens _, (habsent _ _).mpr rfl, (habsent _ _).mpr rfl⟩

theorem ofValue_ok_iff {settings : Settings} : ofValue v = .ok settings ↔ Gives v settings := by
  unfold ofValue
  split
  · rw [gives_null_iff, Except.ok.injEq, eq_comm]
  · next es =>
    constructor
    · intro h
      obtain ⟨references, hreferences, hrest⟩ := bind_eq_ok.mp h
      obtain ⟨output, houtput, hrest⟩ := bind_eq_ok.mp hrest
      obtain rfl := Except.ok.inj hrest
      exact ⟨.inr ⟨es, rfl⟩, readReferences_ok_iff.mp hreferences, readOutput_ok_iff.mp houtput⟩
    · rintro ⟨-, hreferences, houtput⟩
      exact bind_eq_ok.mpr ⟨_, readReferences_ok_iff.mpr hreferences,
        bind_eq_ok.mpr ⟨_, readOutput_ok_iff.mpr houtput, rfl⟩⟩
  · next hnull hmapping =>
    refine iff_of_false (by simp) ?_
    rintro ⟨rfl | ⟨es, rfl⟩, -, -⟩
    · exact hnull rfl
    · exact hmapping es rfl

/-- The values that the documentation allows. -/
structure Documented (v : Value) : Prop where
  /-- The root is null or a mapping. -/
  root : IsSection v
  /-- So is the section about references, if there is one. -/
  references : IfPresent v ["references"] IsSection
  /-- So is the section about output, if there is one. -/
  output : IfPresent v ["output"] IsSection
  /-- The areas are a text or an array of texts, and each text stands for an area. -/
  areas : IfPresent v ["references", "supported_prefixes"] fun w =>
    ∃ texts, Lists w texts ∧ ∀ text ∈ texts, ∃ area, GivesArea text area
  /-- A truth value. -/
  inline : IfPresent v ["references", "inline"] fun w => ∃ b, GivesBool w b
  /-- A number that is at least one. -/
  indent : IfPresent v ["output", "indent"] fun w => ∃ n, GivesPositive w n
  /-- A truth value. -/
  sortKeys : IfPresent v ["output", "sort_keys"] fun w => ∃ b, GivesBool w b

theorem exists_givesAreas_iff : (∃ areas, GivesAreas v areas) ↔
    ∃ texts, Lists v texts ∧ ∀ text ∈ texts, ∃ area, GivesArea text area := by
  simp only [GivesAreas]
  rw [exists_comm]
  simp only [exists_and_left, exists_forall₂_iff]

/-- A value gives settings exactly if it is a documented one. -/
theorem exists_gives_iff : (∃ settings, Gives v settings) ↔ Documented v := by
  constructor
  · rintro ⟨settings, hroot, ⟨hreferences, hareas, hinline⟩, houtput, hindent, hkeys⟩
    refine ⟨hroot, hreferences, houtput, ?_, exists_settingAt_iff.mp ⟨_, hinline⟩,
      exists_settingAt_iff.mp ⟨_, hindent⟩, exists_settingAt_iff.mp ⟨_, hkeys⟩⟩
    intro w hw
    exact exists_givesAreas_iff.mp (exists_settingAt_iff.mp ⟨_, hareas⟩ w hw)
  · intro h
    obtain ⟨areas, hareas⟩ := exists_settingAt_iff.mpr fun w hw =>
      exists_givesAreas_iff.mpr (h.areas w hw)
    obtain ⟨inline, hinline⟩ := exists_settingAt_iff.mpr h.inline
    obtain ⟨indent, hindent⟩ := exists_settingAt_iff.mpr h.indent
    obtain ⟨sortKeys, hkeys⟩ := exists_settingAt_iff.mpr h.sortKeys
    exact ⟨⟨⟨areas, inline⟩, ⟨indent, sortKeys⟩⟩, h.root, ⟨h.references, hareas, hinline⟩,
      h.output, hindent, hkeys⟩

/-! ### Each setting by itself -/

/-- Where the two values have the same at the place of a setting, they give the same setting. -/
structure SameByPlace (v w : Value) (settings other : Settings) : Prop where
  /-- The areas. -/
  areas : v.at? ["references", "supported_prefixes"] = w.at? ["references", "supported_prefixes"] →
    settings.references.areas = other.references.areas
  /-- Whether references are replaced. -/
  inline : v.at? ["references", "inline"] = w.at? ["references", "inline"] →
    settings.references.inline = other.references.inline
  /-- The spaces per level. -/
  indent : v.at? ["output", "indent"] = w.at? ["output", "indent"] →
    settings.output.indent = other.output.indent
  /-- Whether keys are ordered. -/
  sortKeys : v.at? ["output", "sort_keys"] = w.at? ["output", "sort_keys"] →
    settings.output.sortKeys = other.output.sortKeys

theorem GivesAreas.unique {others : List String} (h : GivesAreas v areas)
    (hother : GivesAreas v others) : areas = others :=
  Except.ok.inj ((readAreas_ok_iff.mpr h).symm.trans (readAreas_ok_iff.mpr hother))

theorem GivesBool.unique {b c : Bool} (h : GivesBool v b) (hother : GivesBool v c) : b = c :=
  Scalar.bool.inj (Value.scalar.inj (h.symm.trans hother))

theorem GivesPositive.unique {n k : Nat} (h : GivesPositive v n) (hother : GivesPositive v k) :
    n = k :=
  Int.ofNat.inj (Scalar.int.inj (Value.scalar.inj (h.2.symm.trans hother.2)))

theorem Gives.sameByPlace {settings other : Settings} (h : Gives v settings)
    (hother : Gives w other) : SameByPlace v w settings other where
  areas := h.references.areas.unique hother.references.areas GivesAreas.unique
  inline := h.references.inline.unique hother.references.inline GivesBool.unique
  indent := h.output.indent.unique hother.output.indent GivesPositive.unique
  sortKeys := h.output.sortKeys.unique hother.output.sortKeys GivesBool.unique

/-! ### What the areas are used for -/

theorem Gives.areas_local {settings : Settings} (h : Gives v settings) :
    ∀ area ∈ settings.references.areas, IsLocal area := by
  intro area harea
  have hat := h.references.areas
  generalize settings.references.areas = areas at harea hat
  cases hat with
  | absent _ =>
    obtain rfl := List.mem_singleton.mp harea
    unfold IsLocal
    decide
  | given _ hmeans =>
    obtain ⟨texts, -, hareas⟩ := hmeans
    obtain ⟨text, -, htext⟩ := exists_mem_of_forall₂ hareas harea
    exact htext.starts

/-- Where all areas are local pointers, it is the reference that is refused. -/
theorem refused_of_local {document node : Value} {cause : ReferenceError}
    (hareas : ∀ area ∈ areas, IsLocal area) (h : resolve document areas node = .error cause)
    (hkind : cause.kind = .unsupportedTarget) :
    ∃ ref, node.RefersTo ref ∧ (¬ IsLocal ref ∧ cause = .notLocal ref ∨
      ¬ LeadsBelow areas ref ∧ cause = .outsideAreas ref areas) := by
  have hresolution := resolution document areas node
  rw [h] at hresolution
  cases hresolution with
  | notAReference _ => simp [ReferenceError.kind] at hkind
  | refused href hrefused =>
    refine ⟨_, href, ?_⟩
    cases hrefused with
    | ref hnot => exact .inl ⟨hnot, rfl⟩
    | area hmem hnot => exact absurd (hareas _ hmem) hnot
    | outside hnot => exact .inr ⟨hnot, rfl⟩
  | missing _ _ _ _ => simp [ReferenceError.kind] at hkind

/-! ### Settings files -/

/-- Loading settings is reading a value and taking its settings. -/
theorem load_iff [Loader] {s t : Store} {path : String}
    {r : Except (Failure SettingsFileError) Settings}
    (h : Yields (Loader.readFile (Path.ofText path)) s (.ok v) s) :
    Yields (load path) s r t ↔
      r = ((ofValue v).mapError fun cause => .error (.invalid cause)) ∧ t = s := by
  rw [load, Yields.bind_iff_of_ok (Yields.adapt_ok_iff.mpr h), Yields.mk_pure_iff]

/-- **A settings file is accepted exactly if it is a documented one**, and each setting is
the one that stands at its place, or its default.  The areas that come out can all be
followed as pointers, so a reference that is refused later on is refused for itself. -/
theorem load_documented [Loader] (v : Value) :
    ((∃ settings, ofValue v = .ok settings) ↔ Documented v) ∧
    (∀ settings, ofValue v = .ok settings ↔ Gives v settings) ∧
    (∀ settings, ofValue v = .ok settings →
      (∀ w other, ofValue w = .ok other → SameByPlace v w settings other) ∧
      (∀ area ∈ settings.references.areas, ∃ p, Pointer.parse? area = some p) ∧
      ∀ document node cause, resolve document settings.references.areas node = .error cause →
        cause.kind = .unsupportedTarget → ∃ ref, node.RefersTo ref ∧
          (¬ IsLocal ref ∧ cause = .notLocal ref ∨
            ¬ LeadsBelow settings.references.areas ref ∧
              cause = .outsideAreas ref settings.references.areas)) ∧
    ∀ s path, Yields (Loader.readFile (Path.ofText path)) s (.ok v) s →
      ∀ r t, Yields (load path) s r t ↔
        r = ((ofValue v).mapError fun cause => .error (.invalid cause)) ∧ t = s := by
  refine ⟨?_, fun settings => ofValue_ok_iff, fun settings hsettings => ⟨?_, ?_, ?_⟩, ?_⟩
  · simp only [ofValue_ok_iff, exists_gives_iff]
  · intro w other hother
    exact (ofValue_ok_iff.mp hsettings).sameByPlace (ofValue_ok_iff.mp hother)
  · intro area harea
    exact Pointer.exists_parse?_iff.mpr ((ofValue_ok_iff.mp hsettings).areas_local area harea)
  · intro document node cause hfails hkind
    exact refused_of_local (ofValue_ok_iff.mp hsettings).areas_local hfails hkind
  · intro s path hread r t
    exact load_iff hread

namespace Spaced

/-- A file with one area that is spaced and ends in slashes, an empty section and a setting that is
not known. -/
def store : Store :=
  ⟨[], [(["map.yaml"], .file ("references: \x7bsupported_prefixes: ' #/definitions// '\x7d\n" ++
    "output:\nother: 1\n").toUTF8)]⟩

/-- What the file holds. -/
def value : Value :=
  .mapping [(.str "references", .mapping [(.str "supported_prefixes", .str " #/definitions// ")]),
    (.str "output", .null), (.str "other", .scalar (.int 1))]

/-- The same area without the spaces, and a number of spaces per level that is null. -/
def unset : Value :=
  .mapping [(.str "references", .mapping [(.str "supported_prefixes", .str "#/definitions")]),
    (.str "output", .mapping [(.str "indent", .null)])]

end Spaced

/-- The area is trimmed and everything else has its default, and a reference to another file is
refused as such.  Null is no number of spaces. -/
theorem load_documented_spaced :
    Yields (load "map.yaml") Spaced.store
        (.ok { references := { areas := ["#/definitions"] } }) Spaced.store ∧
      (∃ p, Pointer.parse? "#/definitions" = some p) ∧ ¬ IsLocal "pets.yaml#/definitions/a" ∧
      ¬ Documented Spaced.unset := by
  have hread : Yields (Loader.readFile (Path.ofText "map.yaml")) Spaced.store (.ok Spaced.value)
      Spaced.store :=
    (Quiet.readFile _).yields (toOption_eq_some_iff.mp (by decide +kernel))
  have hvalue : ofValue Spaced.value = .ok { references := { areas := ["#/definitions"] } } := by
    decide +kernel
  obtain ⟨-, -, hareas, hload⟩ := load_documented Spaced.value
  obtain ⟨-, hparse, hrefused⟩ := hareas _ hvalue
  obtain ⟨hunset, -⟩ := load_documented Spaced.unset
  refine ⟨(hload _ _ hread _ _).mpr ⟨by rw [hvalue, mapError_ok], rfl⟩,
    hparse _ List.mem_cons_self, ?_, fun hdocumented => ?_⟩
  · obtain ⟨ref, -, ⟨hlocal, hcause⟩ | ⟨-, hcause⟩⟩ :=
      hrefused .null (.reference "pets.yaml#/definitions/a") _ rfl rfl
    · obtain rfl := ReferenceError.notLocal.inj hcause
      exact hlocal
    · simp at hcause
  · obtain ⟨settings, hsettings⟩ := hunset.mpr hdocumented
    have hfails : ofValue Spaced.unset = .error (.notInteger "output.indent") := by decide +kernel
    simp [hfails] at hsettings

end ApiSchema.Settings
