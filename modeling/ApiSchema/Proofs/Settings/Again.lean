/-
Areas that are read again.

An area is trimmed in two steps, white space first and slashes second, and each step is
taken once.  What the second step leaves has no slash at its end, but it may have the
white space there that stood in front of the slashes (`HidesBlank`).  Such an area is
accepted, and when it is written to a file and read from there, the white space goes, so
what comes back is another area or none.

That is the only way.  An area starts with a hash, so nothing is trimmed in front of it,
and where no white space is left behind, nothing is trimmed at all (`Settled`).
-/
import ApiSchema.Proofs.Settings.Areas

namespace ApiSchema.Settings

variable {v w : Value} {entry area : String} {texts areas : List String}

/-! ### Areas of which nothing is trimmed -/

/-- The text has white space at neither end, and no slash at its end. -/
structure Settled (area : String) : Prop where
  /-- It does not start with white space. -/
  first : ∀ c, area.toList.head? = some c → Text.isBlank c = false
  /-- It does not end in white space. -/
  last : ∀ c, area.toList.getLast? = some c → Text.isBlank c = false
  /-- It does not end in a slash. -/
  slash : area.toList.getLast? ≠ some '/'

theorem trimArea_eq_self_iff : trimArea area = area ↔ Settled area := by
  rw [trimArea_eq_iff]
  constructor
  · rintro ⟨inner, ⟨⟨front, behind, hfront, -, -⟩, hfirst, hlast⟩, ⟨slashes, hslashes, -⟩, hslash⟩
    -- What is trimmed twice is not longer than before, so nothing was trimmed.
    have houter := congrArg List.length hfront
    have hinner := congrArg List.length hslashes
    simp only [List.length_append] at houter hinner
    have hnone : slashes = [] := List.length_eq_zero_iff.mp (by omega)
    rw [hnone, List.append_nil] at hslashes
    rw [hslashes] at hfirst hlast
    refine ⟨hfirst, hlast, fun hend => ?_⟩
    simpa using hslash _ hend
  · rintro ⟨hfirst, hlast, hslash⟩
    refine ⟨area.toList, ⟨⟨[], [], by simp⟩, hfirst, hlast⟩, ⟨[], by simp⟩, fun c hc => ?_⟩
    rw [decide_eq_false_iff_not]
    rintro rfl
    exact hslash hc

/-! ### White space in front of slashes -/

/-- The text ends in white space. -/
def EndsBlank (text : String) : Prop :=
  ∃ c, text.toList.getLast? = some c ∧ Text.isBlank c = true

/-- When the white space around the entry is gone, there is more of it in front of the slashes at
the end. -/
def HidesBlank (entry : String) : Prop :=
  ∃ front blank slashes, (trimmed entry).toList = front ++ blank :: '/' :: slashes ∧
    Text.isBlank blank = true ∧ ∀ c ∈ slashes, c = '/'

theorem trimmed_last (entry : String) :
    ∀ c, (trimmed entry).toList.getLast? = some c → Text.isBlank c = false := by
  rw [trimmed, String.toList_ofList]
  exact (Text.trimWhere_eq_iff.mp rfl).last

theorem trimArea_trimmedBehind (entry : String) :
    Text.TrimmedBehind (· = '/') (trimmed entry).toList (trimArea entry).toList :=
  Text.dropTrailing_eq_iff.mp (toList_trimArea entry).symm

theorem getLast?_trimArea (entry : String) : (trimArea entry).toList.getLast? ≠ some '/' := by
  intro h
  simpa using (trimArea_trimmedBehind entry).last _ h

/-- An area ends in white space exactly if its entry has white space in front of the slashes. -/
theorem endsBlank_trimArea_iff : EndsBlank (trimArea entry) ↔ HidesBlank entry := by
  constructor
  · rintro ⟨blank, hend, hblank⟩
    obtain ⟨slashes, hsplit, hall⟩ := (trimArea_trimmedBehind entry).cut
    obtain ⟨front, hfront⟩ := List.getLast?_eq_some_iff.mp hend
    cases slashes with
    | nil =>
      -- With no slash to drop, the white space would have gone with the rest.
      rw [← List.append_nil (trimArea entry).toList, ← hsplit] at hend
      rw [trimmed_last entry blank hend] at hblank
      simp at hblank
    | cons slash slashes =>
      obtain rfl : slash = '/' := by simpa using hall slash List.mem_cons_self
      refine ⟨front, blank, slashes, ?_, hblank, fun c hc => ?_⟩
      · rw [hsplit, hfront, List.append_assoc, List.singleton_append]
      · simpa using hall c (List.mem_cons_of_mem _ hc)
  · rintro ⟨front, blank, slashes, hsplit, hblank, hall⟩
    have hleft : (trimArea entry).toList = front ++ [blank] := by
      rw [toList_trimArea, Text.dropTrailing_eq_iff]
      refine ⟨⟨'/' :: slashes, by simp [hsplit], by simpa using hall⟩, fun c hc => ?_⟩
      obtain rfl : blank = c := by simpa using hc
      rw [decide_eq_false_iff_not]
      rintro rfl
      exact absurd hblank (by decide)
    exact ⟨blank, by rw [hleft, List.getLast?_concat], hblank⟩

theorem head?_of_isLocal (h : IsLocal area) : area.toList.head? = some '#' := by
  obtain ⟨body, hbody⟩ := h
  rw [← hbody]
  rfl

theorem not_blank_head (h : IsLocal area) (c : Char) (hc : area.toList.head? = some c) :
    Text.isBlank c = false := by
  obtain rfl := Option.some.inj ((head?_of_isLocal h).symm.trans hc)
  decide

theorem settled_trimArea_iff (h : IsLocal (trimArea entry)) :
    Settled (trimArea entry) ↔ ¬ HidesBlank entry := by
  rw [← endsBlank_trimArea_iff]
  constructor
  · rintro hsettled ⟨c, hc, hblank⟩
    rw [hsettled.last c hc] at hblank
    simp at hblank
  · intro hends
    refine ⟨not_blank_head h, fun c hc => ?_, getLast?_trimArea entry⟩
    cases hblank : Text.isBlank c with
    | false => rfl
    | true => exact absurd ⟨c, hc, hblank⟩ hends

/-! ### Reading areas again -/

/-- Areas are read as themselves if nothing of them is trimmed. -/
theorem Lists.readAreas_self_iff (h : Lists w areas) (hlocal : ∀ area ∈ areas, IsLocal area) :
    readAreas w = .ok areas ↔ ∀ area ∈ areas, Settled area := by
  have hfixed : areas = areas.map trimArea ↔ ∀ area ∈ areas, Settled area := by
    have hself := List.map_inj_left (l := areas) (f := trimArea) (g := id)
    rw [List.map_id] at hself
    rw [eq_comm, hself]
    simp only [id_eq, trimArea_eq_self_iff]
  rw [h.readAreas_ok_iff, hfixed]
  constructor
  · rintro ⟨-, hsettled⟩
    exact hsettled
  · intro hsettled
    refine ⟨fun area harea => ?_, hsettled⟩
    rw [trimArea_eq_self_iff.mpr (hsettled area harea)]
    exact hlocal area harea

/-! ### Writing areas back -/

/-- A file that gives areas and nothing else. -/
def onlyAreas (w : Value) : Value :=
  .mapping [(.str "references", .mapping [(.str "supported_prefixes", w)])]

theorem ofValue_onlyAreas (h : readAreas w = .ok areas) :
    ofValue (onlyAreas w) = .ok { references := { areas } } := by
  rw [ofValue_ok_iff]
  have hreferences : GivesReferences (onlyAreas w) { areas } := by
    refine ⟨fun u hu => ?_, .given rfl (readAreas_ok_iff.mp h), .absent rfl⟩
    obtain rfl := Option.some.inj hu
    exact .inr ⟨_, rfl⟩
  have houtput : GivesOutput (onlyAreas w) {} := by
    refine ⟨fun u hu => ?_, .absent rfl, .absent rfl⟩
    have hnone : (onlyAreas w).at? ["output"] = none := rfl
    simp [hnone] at hu
  exact ⟨.inr ⟨_, rfl⟩, hreferences, houtput⟩

/-- Whatever else is set, the areas are those that are read at their place. -/
theorem areas_of_ofValue {root : Value} {settings : Settings} (h : readAreas w = .ok areas)
    (hw : root.at? ["references", "supported_prefixes"] = some w)
    (hsettings : ofValue root = .ok settings) : settings.references.areas = areas := by
  have hat := (ofValue_ok_iff.mp hsettings).references.areas
  generalize settings.references.areas = others at hat
  cases hat with
  | absent hnone => simp [hw] at hnone
  | given hw' hmeans =>
    obtain rfl := Option.some.inj (hw.symm.trans hw')
    exact hmeans.unique (readAreas_ok_iff.mp h)

/-- **Areas are read as themselves unless white space was hidden in front of their slashes.**  No
area that is accepted starts with white space or ends in a slash.  It ends in white space exactly if
its entry has white space in front of the slashes at its end.  If no entry has, then the areas are
read again as they are, and a file that gives them has the same areas; otherwise reading them again
does not give them back. -/
theorem readAreas_again [Loader] (h : readAreas v = .ok areas) :
    (∀ area ∈ areas, (∀ c, area.toList.head? = some c → Text.isBlank c = false) ∧
      area.toList.getLast? ≠ some '/') ∧
    ∃ texts, Lists v texts ∧ areas = texts.map trimArea ∧
      (∀ entry ∈ texts, EndsBlank (trimArea entry) ↔ HidesBlank entry) ∧
      ∀ w, Lists w areas → (readAreas w = .ok areas ↔ ∀ entry ∈ texts, ¬ HidesBlank entry) ∧
        ((∀ entry ∈ texts, ¬ HidesBlank entry) →
          (∀ root settings, root.at? ["references", "supported_prefixes"] = some w →
            ofValue root = .ok settings → settings.references.areas = areas) ∧
          ∀ s path, Yields (Loader.readFile (Path.ofText path)) s (.ok (onlyAreas w)) s →
            Yields (load path) s (.ok { references := { areas } }) s) := by
  obtain ⟨texts, hlists, -⟩ := readAreas_ok_iff.mp h
  obtain ⟨hlocal, rfl⟩ := hlists.readAreas_ok_iff.mp h
  have hareas : ∀ area ∈ texts.map trimArea, IsLocal area := by simpa using hlocal
  refine ⟨fun area harea => ⟨not_blank_head (hareas area harea), ?_⟩, texts, hlists, rfl,
    fun entry _ => endsBlank_trimArea_iff, fun w hw => ?_⟩
  · obtain ⟨entry, -, rfl⟩ := List.mem_map.mp harea
    exact getLast?_trimArea entry
  · have hself : readAreas w = .ok (texts.map trimArea) ↔ ∀ entry ∈ texts, ¬ HidesBlank entry := by
      rw [hw.readAreas_self_iff hareas, List.forall_mem_map]
      exact forall₂_congr fun entry hentry => settled_trimArea_iff (hlocal entry hentry)
    refine ⟨hself, fun hnone => ⟨fun root settings hroot hsettings => ?_, fun s path hread => ?_⟩⟩
    · exact areas_of_ofValue (hself.mpr hnone) hroot hsettings
    · refine (load_iff hread).mpr ⟨?_, rfl⟩
      rw [ofValue_onlyAreas (hself.mpr hnone), mapError_ok]

namespace Spaced

/-- A file with the areas of the other one. -/
def again : Store :=
  ⟨[], [(["map.yaml"], .file
    "references: \x7bsupported_prefixes: ['#/definitions']\x7d\n".toUTF8)]⟩

end Spaced

/-- An area without its spaces and slashes is read again from a file, and one with a space in front
of its slash is not. -/
theorem readAreas_again_spaced :
    Yields (load "map.yaml") Spaced.again
        (.ok { references := { areas := ["#/definitions"] } }) Spaced.again ∧
      readAreas (.str "#/a /") = .ok ["#/a "] ∧ readAreas (.str "#/a ") ≠ .ok ["#/a "] := by
  have hsettled : readAreas (.str " #/definitions// ") = .ok ["#/definitions"] := by decide +kernel
  have hhides : readAreas (.str "#/a /") = .ok ["#/a "] := by decide +kernel
  refine ⟨?_, hhides, ?_⟩
  · obtain ⟨-, texts, hlists, hareas, -, hagain⟩ := readAreas_again hsettled
    have hw : Lists (.array .list [.str "#/definitions"]) ["#/definitions"] :=
      .array .list (List.cons_ne_nil "#/definitions" [])
    obtain ⟨hself, hback⟩ := hagain _ hw
    have hread : Yields (Loader.readFile (Path.ofText "map.yaml")) Spaced.again
        (.ok (onlyAreas (.array .list [.str "#/definitions"]))) Spaced.again :=
      (Quiet.readFile _).yields (toOption_eq_some_iff.mp (by decide +kernel))
    exact (hback (hself.mp (by decide +kernel))).2 _ _ hread
  · obtain ⟨-, texts, hlists, -, -, hagain⟩ := readAreas_again hhides
    obtain rfl := hlists.unique (.single "#/a /")
    intro hself
    refine (hagain _ (.single "#/a ")).1.mp hself "#/a /" List.mem_cons_self ?_
    exact ⟨"#/a".toList, ' ', [], by decide +kernel, by decide, by simp⟩

/-- An area with white space at its end becomes another one when it is read again, or none. -/
theorem readAreas_loses_blank :
    readAreas (.array .list [.str "#/a /"]) = .ok ["#/a "] ∧
      readAreas (.array .list [.str "#/a "]) = .ok ["#/a"] ∧
      readAreas (.array .list [.str "#/ /"]) = .ok ["#/ "] ∧
      readAreas (.array .list [.str "#/ "]) = .error (.areaNotLocal "#/ ") := by
  decide +kernel

end ApiSchema.Settings
