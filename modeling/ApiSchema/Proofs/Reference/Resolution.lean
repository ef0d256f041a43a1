/-
What becomes of a reference.

Following a reference has three stages, and each of them fails in its own way.  The
node has to hold a text under `$ref`.  The text and all areas have to be pointers, and
the path of the text has to go on from the path of an area (`Supported`).  At last the
path is followed from the root, and it breaks off at the first value that is no
mapping or lacks the next name (`BreaksAt`).

The document is looked at in the last stage only, and the areas only in the second
one, as a set.  So what is refused is refused in every document, and what is found
lies strictly below an area.
-/
import ApiSchema.Proofs.Pointer.Canonical
import ApiSchema.Proofs.Reference.Acyclic
import ApiSchema.Proofs.Reference.Locality

namespace ApiSchema

variable {document node v w : Value} {areas others : List String} {ref area : String}
  {p q : Pointer} {path place passed : List String} {cause : ReferenceError}

/-! ### What a node refers to -/

/-- The node is a mapping with a text under `$ref`. -/
def Value.RefersTo (node : Value) (ref : String) : Prop :=
  ∃ es, node = .mapping es ∧ Entries.get? es Keyword.ref = some (.str ref)

theorem Value.text?_eq_some_iff {s : String} : v.text? = some s ↔ v = .str s := by
  unfold Value.text?
  split
  · simp
  · next hother =>
    constructor
    · simp
    · rintro rfl
      exact absurd rfl (hother s)

theorem refersTo_iff : node.RefersTo ref ↔ node.entries?.bind Entries.ref? = some ref := by
  simp only [Value.RefersTo, Option.bind_eq_some_iff, Value.entries?_eq_some_iff, Entries.ref?,
    Value.text?_eq_some_iff, exists_eq_right]

theorem Value.RefersTo.unique {other : String} (h : node.RefersTo ref)
    (hother : node.RefersTo other) : ref = other :=
  Option.some.inj ((refersTo_iff.mp h).symm.trans (refersTo_iff.mp hother))

/-- A node is followed along one path. -/
theorem Value.RefersTo.pointer_unique {other : String} (h : node.RefersTo ref)
    (hother : node.RefersTo other) (hp : Pointer.parse? ref = some p)
    (hq : Pointer.parse? other = some q) : p = q := by
  obtain rfl := h.unique hother
  exact Option.some.inj (hp.symm.trans hq)

theorem resolve_of_refersTo (h : node.RefersTo ref) :
    resolve document areas node = resolveText document areas ref := by
  rw [resolve, refersTo_iff.mp h]

theorem resolve_of_not_refersTo (h : ∀ ref, ¬ node.RefersTo ref) :
    resolve document areas node = .error .notAReference := by
  rw [resolve]
  cases href : node.entries?.bind Entries.ref? with
  | none => rfl
  | some ref => exact absurd (refersTo_iff.mpr href) (h ref)

/-! ### Which references are supported -/

/-- The text starts as a local pointer does. -/
def IsLocal (text : String) : Prop := Pointer.localStart.toList <+: text.toList

theorem isLocal_iff : IsLocal ref ↔ ∃ p, localPointer ref = .ok p := by
  simp only [localPointer_eq_ok_iff, Pointer.exists_parse?_iff, IsLocal]

theorem Pointer.isBelow_iff : p.isBelow q = true ↔
    ∃ name rest, p.segments = q.segments ++ name :: rest := by
  simp only [isBelow, startsWith, Bool.and_eq_true, List.isPrefixOf_iff_prefix, decide_eq_true_eq]
  constructor
  · rintro ⟨⟨rest, hrest⟩, hlength⟩
    cases rest with
    | nil =>
      rw [List.append_nil] at hrest
      rw [hrest] at hlength
      exact absurd hlength (Nat.lt_irrefl _)
    | cons name rest => exact ⟨name, rest, hrest.symm⟩
  · rintro ⟨name, rest, hsegments⟩
    rw [hsegments]
    refine ⟨List.prefix_append _ _, ?_⟩
    rw [List.length_append, List.length_cons]
    omega

/-- The path of the reference goes on from the path of one of the areas. -/
def LeadsBelow (areas : List String) (ref : String) : Prop :=
  ∃ p, Pointer.parse? ref = some p ∧ ∃ area ∈ areas, ∃ q, Pointer.parse? area = some q ∧
    ∃ name rest, p.segments = q.segments ++ name :: rest

/-- The reference may be followed, whatever the document is. -/
structure Supported (areas : List String) (ref : String) : Prop where
  /-- The reference starts as a local pointer. -/
  ref_local : IsLocal ref
  /-- So does every area. -/
  areas_local : ∀ area ∈ areas, IsLocal area
  /-- The reference leads strictly below one of them. -/
  below : LeadsBelow areas ref

theorem not_supported_iff : ¬ Supported areas ref ↔
    ¬ IsLocal ref ∨ (∃ area ∈ areas, ¬ IsLocal area) ∨ ¬ LeadsBelow areas ref := by
  constructor
  · intro hnot
    by_cases href : IsLocal ref
    · by_cases hareas : ∀ area ∈ areas, IsLocal area
      · exact .inr (.inr fun hbelow => hnot ⟨href, hareas, hbelow⟩)
      · push Not at hareas
        exact .inr (.inl hareas)
    · exact .inl href
  · rintro (href | ⟨area, harea, hlocal⟩ | hbelow) hsupported
    · exact href hsupported.ref_local
    · exact hlocal (hsupported.areas_local area harea)
    · exact hbelow hsupported.below

theorem Supported.congr (hareas : ∀ area, area ∈ areas ↔ area ∈ others) :
    Supported areas ref ↔ Supported others ref := by
  have hbelow : LeadsBelow areas ref ↔ LeadsBelow others ref := by
    simp only [LeadsBelow, hareas]
  constructor
  · rintro ⟨href, hlocal, h⟩
    exact ⟨href, fun area harea => hlocal area ((hareas area).mpr harea), hbelow.mp h⟩
  · rintro ⟨href, hlocal, h⟩
    exact ⟨href, fun area harea => hlocal area ((hareas area).mp harea), hbelow.mpr h⟩

theorem supportedPointer_ok_iff :
    supportedPointer areas ref = .ok p ↔ Supported areas ref ∧ Pointer.parse? ref = some p := by
  simp only [supportedPointer_eq_ok_iff, Pointer.isBelow_iff, Pointer.exists_parse?_iff]
  constructor
  · rintro ⟨hp, hareas, hbelow⟩
    exact ⟨⟨Pointer.exists_parse?_iff.mp ⟨p, hp⟩, hareas, p, hp, hbelow⟩, hp⟩
  · rintro ⟨⟨-, hareas, p', hp', hbelow⟩, hp⟩
    obtain rfl := Option.some.inj (hp'.symm.trans hp)
    exact ⟨hp, hareas, hbelow⟩

/-- Why a reference may not be followed. -/
inductive Refused (areas : List String) (ref : String) : ReferenceError → Prop
  /-- The reference is no local pointer. -/
  | ref (h : ¬ IsLocal ref) : Refused areas ref (.notLocal ref)
  /-- One of the areas is none. -/
  | area {area : String} (hmem : area ∈ areas) (h : ¬ IsLocal area) :
      Refused areas ref (.notLocal area)
  /-- The reference does not lead below an area. -/
  | outside (h : ¬ LeadsBelow areas ref) : Refused areas ref (.outsideAreas ref areas)

theorem Refused.kind (h : Refused areas ref cause) : cause.kind = .unsupportedTarget := by
  cases h <;> rfl

theorem Refused.not_supported (h : Refused areas ref cause) : ¬ Supported areas ref := by
  intro hsupported
  cases h with
  | ref h => exact h hsupported.ref_local
  | area hmem h => exact h (hsupported.areas_local _ hmem)
  | outside h => exact h hsupported.below

theorem localPointer_eq_error {text : String} (h : localPointer text = .error cause) :
    ¬ IsLocal text ∧ cause = .notLocal text := by
  constructor
  · intro hlocal
    obtain ⟨p, hp⟩ := isLocal_iff.mp hlocal
    simp [hp] at h
  · rw [localPointer] at h
    split at h
    · simp at h
    · exact (Except.error.inj h).symm

/-- What is not supported is refused for one of the three reasons. -/
theorem refused_of_supportedPointer (h : supportedPointer areas ref = .error cause) :
    Refused areas ref cause := by
  rcases bind_eq_error.mp h with href | ⟨p, hp, hrest⟩
  · obtain ⟨hlocal, rfl⟩ := localPointer_eq_error href
    exact .ref hlocal
  rcases bind_eq_error.mp hrest with hareas | ⟨supported, hsupported, hbelow⟩
  · obtain ⟨area, hmem, harea⟩ := exists_error_of_mapM hareas
    obtain ⟨hlocal, rfl⟩ := localPointer_eq_error harea
    exact .area hmem hlocal
  · split at hbelow
    · simp [pure, Except.pure] at hbelow
    · next hany =>
      obtain rfl := Except.error.inj hbelow
      refine .outside ?_
      rintro ⟨p', hp', area, harea, q, hq, hextends⟩
      obtain rfl := Option.some.inj (hp'.symm.trans (localPointer_eq_ok_iff.mp hp))
      have hmem := mem_of_mapM hsupported harea (localPointer_eq_ok_iff.mpr hq)
      exact hany (List.any_eq_true.mpr ⟨q, hmem, Pointer.isBelow_iff.mpr hextends⟩)

/-! ### Following a path -/

/-- The path breaks off at its beginning `place`: what stands in front of the last name of `place`
is no mapping that has this name. -/
def BreaksAt (v : Value) (path place : List String) : Prop :=
  ∃ before name after w, path = before ++ name :: after ∧ place = before ++ [name] ∧
    v.at? before = some w ∧ ∀ es, w = .mapping es → Entries.get? es name = none

theorem Value.child?_eq_none_iff {name : String} :
    v.child? name = none ↔ ∀ es, v = .mapping es → Entries.get? es name = none := by
  cases v <;> simp [Value.child?]

theorem Value.at?_append (v : Value) (before after : List String) :
    v.at? (before ++ after) = (v.at? before).bind fun w => w.at? after := List.foldlM_append

theorem breaksAt_cons {name : String} (h : v.child? name = some w) :
    BreaksAt v (name :: path) place ↔ ∃ rest, place = name :: rest ∧ BreaksAt w path rest := by
  constructor
  · rintro ⟨before, last, after, u, hpath, rfl, hbefore, hnone⟩
    cases before with
    | nil =>
      obtain ⟨rfl, rfl⟩ := List.cons.inj hpath
      obtain rfl := Option.some.inj hbefore
      rw [Value.child?_eq_none_iff.mpr hnone] at h
      simp at h
    | cons first before =>
      obtain ⟨rfl, rfl⟩ := List.cons.inj hpath
      rw [Document.at?_cons, h, Option.bind_some] at hbefore
      exact ⟨before ++ [last], rfl, before, last, after, u, rfl, rfl, hbefore, hnone⟩
  · rintro ⟨rest, rfl, before, last, after, u, rfl, rfl, hbefore, hnone⟩
    refine ⟨name :: before, last, after, u, rfl, rfl, ?_, hnone⟩
    rw [Document.at?_cons, h, Option.bind_some, hbefore]

theorem breaksAt_cons_of_none {name : String} (h : v.child? name = none) :
    BreaksAt v (name :: path) place ↔ place = [name] := by
  constructor
  · rintro ⟨before, last, after, u, hpath, rfl, hbefore, -⟩
    cases before with
    | nil =>
      obtain ⟨rfl, rfl⟩ := List.cons.inj hpath
      rfl
    | cons first before =>
      obtain ⟨rfl, rfl⟩ := List.cons.inj hpath
      rw [Document.at?_cons, h] at hbefore
      simp at hbefore
  · rintro rfl
    exact ⟨[], name, path, v, rfl, rfl, rfl, Value.child?_eq_none_iff.mp h⟩

/-- A path that cannot be followed is reported as far as the name at which it breaks off. -/
theorem follow_eq_error_iff : follow v passed path = .error place ↔
    ∃ rest, place = passed ++ rest ∧ BreaksAt v path rest := by
  induction path generalizing v passed with
  | nil => simp [follow, BreaksAt]
  | cons name path ih =>
    rw [follow]
    cases hchild : v.child? name with
    | none =>
      simp only [breaksAt_cons_of_none hchild, exists_eq_right, Except.error.injEq]
      exact eq_comm
    | some w =>
      simp only [breaksAt_cons hchild, ih]
      constructor
      · rintro ⟨rest, rfl, hrest⟩
        exact ⟨name :: rest, by simp, rest, rfl, hrest⟩
      · rintro ⟨_, rfl, rest, rfl, hrest⟩
        exact ⟨rest, by simp, hrest⟩

theorem follow_eq_ok_iff : follow v passed path = .ok w ↔ v.at? path = some w := by
  rw [← follow_eq v passed, toOption_eq_some_iff]

/-- A path leads nowhere exactly if it breaks off. -/
theorem at?_eq_none_iff : v.at? path = none ↔ ∃ place, BreaksAt v path place := by
  cases hfollow : follow v [] path with
  | error place =>
    obtain ⟨rest, -, hbreaks⟩ := follow_eq_error_iff.mp hfollow
    have hnone : v.at? path = none := by
      rw [← follow_eq v [], hfollow]
      rfl
    exact iff_of_true hnone ⟨rest, hbreaks⟩
  | ok w =>
    rw [follow_eq_ok_iff.mp hfollow]
    simp only [reduceCtorEq, false_iff, not_exists]
    intro place hbreaks
    have hplace := follow_eq_error_iff.mpr ⟨place, (List.nil_append place).symm, hbreaks⟩
    rw [hfollow] at hplace
    simp at hplace

/-! ### All that can happen -/

/-- How following a node ends: the stage that it gets to, and what comes of it there. -/
inductive Resolution (document : Value) (areas : List String) (node : Value) :
    Except ReferenceError Value → Prop
  /-- There is nothing to follow. -/
  | notAReference (h : ∀ ref, ¬ node.RefersTo ref) :
      Resolution document areas node (.error .notAReference)
  /-- The reference may not be followed. -/
  | refused {ref : String} {cause : ReferenceError} (href : node.RefersTo ref)
      (h : Refused areas ref cause) : Resolution document areas node (.error cause)
  /-- The path breaks off. -/
  | missing {ref : String} {p : Pointer} {place : List String} (href : node.RefersTo ref)
      (hsupported : Supported areas ref) (hp : Pointer.parse? ref = some p)
      (h : BreaksAt document p.segments place) :
      Resolution document areas node (.error (.missing ref place))
  /-- The path leads to a value. -/
  | found {ref : String} {p : Pointer} {v : Value} (href : node.RefersTo ref)
      (hsupported : Supported areas ref) (hp : Pointer.parse? ref = some p)
      (h : document.at? p.segments = some v) : Resolution document areas node (.ok v)

theorem resolution (document : Value) (areas : List String) (node : Value) :
    Resolution document areas node (resolve document areas node) := by
  by_cases hnode : ∃ ref, node.RefersTo ref
  · obtain ⟨ref, href⟩ := hnode
    rw [resolve_of_refersTo href, resolveText]
    cases hpointer : supportedPointer areas ref with
    | error cause => exact .refused href (refused_of_supportedPointer hpointer)
    | ok p =>
      obtain ⟨hsupported, hp⟩ := supportedPointer_ok_iff.mp hpointer
      simp only [bind, Except.bind]
      cases hfollow : follow document [] p.segments with
      | error place =>
        obtain ⟨rest, rfl, hbreaks⟩ := follow_eq_error_iff.mp hfollow
        exact .missing href hsupported hp hbreaks
      | ok v => exact .found href hsupported hp (follow_eq_ok_iff.mp hfollow)
  · have hnone : ∀ ref, ¬ node.RefersTo ref := not_exists.mp hnode
    rw [resolve_of_not_refersTo hnone]
    exact .notAReference hnone

/-- The result with the kind of a failure, without its details. -/
def kindOf (result : Except ReferenceError Value) : Except ReferenceErrorKind Value :=
  result.mapError ReferenceError.kind

@[simp] theorem kindOf_error : kindOf (.error cause) = .error cause.kind := rfl

@[simp] theorem kindOf_ok : kindOf (.ok v) = .ok v := rfl

namespace Resolution

variable {result : Except ReferenceError Value}

theorem notAReference_iff (h : Resolution document areas node result) :
    kindOf result = .error .notAReference ↔ ∀ ref, ¬ node.RefersTo ref := by
  cases h with
  | notAReference hnone => exact iff_of_true rfl hnone
  | refused href hrefused =>
    refine iff_of_false ?_ fun hnone => hnone _ href
    simp [hrefused.kind]
  | missing href _ _ _ =>
    refine iff_of_false ?_ fun hnone => hnone _ href
    simp [ReferenceError.kind]
  | found href _ _ _ => exact iff_of_false (by simp) fun hnone => hnone _ href

theorem unsupportedTarget_iff (h : Resolution document areas node result) :
    kindOf result = .error .unsupportedTarget ↔
      ∃ ref, node.RefersTo ref ∧ ¬ Supported areas ref := by
  cases h with
  | notAReference hnone =>
    refine iff_of_false ?_ fun ⟨ref, href, _⟩ => hnone ref href
    simp [ReferenceError.kind]
  | refused href hrefused =>
    refine iff_of_true ?_ ⟨_, href, hrefused.not_supported⟩
    simp [hrefused.kind]
  | missing href hsupported _ _ =>
    refine iff_of_false ?_ fun ⟨ref, hother, hnot⟩ => hnot (href.unique hother ▸ hsupported)
    simp [ReferenceError.kind]
  | found href hsupported _ _ =>
    refine iff_of_false ?_ fun ⟨ref, hother, hnot⟩ => hnot (href.unique hother ▸ hsupported)
    simp

theorem unresolvedPath_iff (h : Resolution document areas node result) :
    kindOf result = .error .unresolvedPath ↔ ∃ ref p, node.RefersTo ref ∧ Supported areas ref ∧
      Pointer.parse? ref = some p ∧ ∃ place, BreaksAt document p.segments place := by
  cases h with
  | notAReference hnone =>
    refine iff_of_false ?_ fun ⟨ref, _, href, _⟩ => hnone ref href
    simp [ReferenceError.kind]
  | refused href hrefused =>
    refine iff_of_false ?_ ?_
    · simp [hrefused.kind]
    · rintro ⟨ref, _, hother, hsupported, -⟩
      exact hrefused.not_supported (hother.unique href ▸ hsupported)
  | missing href hsupported hp hbreaks =>
    exact iff_of_true rfl ⟨_, _, href, hsupported, hp, _, hbreaks⟩
  | found href _ hp hfound =>
    refine iff_of_false (by simp) ?_
    rintro ⟨ref, p, hother, -, hparse, hbreaks⟩
    obtain rfl := href.pointer_unique hother hp hparse
    rw [at?_eq_none_iff.mpr hbreaks] at hfound
    simp at hfound

theorem ok_iff (h : Resolution document areas node result) :
    kindOf result = .ok v ↔ ∃ ref p, node.RefersTo ref ∧ Supported areas ref ∧
      Pointer.parse? ref = some p ∧ document.at? p.segments = some v := by
  cases h with
  | notAReference hnone => exact iff_of_false (by simp) fun ⟨ref, _, href, _⟩ => hnone ref href
  | refused href hrefused =>
    refine iff_of_false (by simp) ?_
    rintro ⟨ref, _, hother, hsupported, -⟩
    exact hrefused.not_supported (hother.unique href ▸ hsupported)
  | missing href _ hp hbreaks =>
    refine iff_of_false (by simp) ?_
    rintro ⟨ref, p, hother, -, hparse, hfound⟩
    obtain rfl := href.pointer_unique hother hp hparse
    rw [at?_eq_none_iff.mpr ⟨_, hbreaks⟩] at hfound
    simp at hfound
  | found href hsupported hp hfound =>
    rw [kindOf_ok, Except.ok.injEq]
    constructor
    · rintro rfl
      exact ⟨_, _, href, hsupported, hp, hfound⟩
    · rintro ⟨ref, p, hother, -, hparse, hat⟩
      obtain rfl := href.pointer_unique hother hp hparse
      exact Option.some.inj (hfound.symm.trans hat)

/-- With other areas that are the same ones, the end is of the same kind. -/
theorem kindOf_eq {other : Except ReferenceError Value}
    (h : Resolution document areas node result) (h' : Resolution document others node other)
    (hareas : ∀ area, area ∈ areas ↔ area ∈ others) : kindOf result = kindOf other := by
  cases h with
  | notAReference hnone => exact (h'.notAReference_iff.mpr hnone).symm
  | refused href hrefused =>
    have hnot := mt (Supported.congr hareas).mpr hrefused.not_supported
    rw [kindOf_error, hrefused.kind]
    exact (h'.unsupportedTarget_iff.mpr ⟨_, href, hnot⟩).symm
  | missing href hsupported hp hbreaks =>
    have hother := (Supported.congr hareas).mp hsupported
    exact (h'.unresolvedPath_iff.mpr ⟨_, _, href, hother, hp, _, hbreaks⟩).symm
  | found href hsupported hp hfound =>
    have hother := (Supported.congr hareas).mp hsupported
    exact (h'.ok_iff.mpr ⟨_, _, href, hother, hp, hfound⟩).symm

end Resolution

theorem kindOf_eq_ok_iff {result : Except ReferenceError Value} :
    kindOf result = .ok v ↔ result = .ok v := mapError_eq_ok

/-- A failure that is none of the path is the same in every document. -/
theorem resolve_eq_error_of_ne (h : resolve document areas node = .error cause)
    (hkind : cause.kind ≠ .unresolvedPath) (other : Value) :
    resolve other areas node = .error cause := by
  by_cases hnode : ∃ ref, node.RefersTo ref
  · obtain ⟨ref, href⟩ := hnode
    rw [resolve_of_refersTo href, resolveText] at h ⊢
    rcases bind_eq_error.mp h with hpointer | ⟨p, -, hfollow⟩
    · rw [hpointer]
      rfl
    · split at hfollow
      · simp [pure, Except.pure] at hfollow
      · obtain rfl := Except.error.inj hfollow
        exact absurd rfl hkind
  · have hnone : ∀ ref, ¬ node.RefersTo ref := not_exists.mp hnode
    rw [resolve_of_not_refersTo hnone] at h ⊢
    exact h

/-- **What becomes of a reference is decided in three stages**: whether the node holds
one, whether it may be followed, and how far its path leads.  The document is not
looked at before the last stage.  What is found lies strictly below an area, and of
the areas it only matters which ones there are. -/
theorem resolve_outcome (document node : Value) (areas : List String) :
    (kindOf (resolve document areas node) = .error .notAReference ↔
      ∀ ref, ¬ node.RefersTo ref) ∧
    (kindOf (resolve document areas node) = .error .unsupportedTarget ↔
      ∃ ref, node.RefersTo ref ∧
        (¬ IsLocal ref ∨ (∃ area ∈ areas, ¬ IsLocal area) ∨ ¬ LeadsBelow areas ref)) ∧
    (kindOf (resolve document areas node) = .error .unresolvedPath ↔
      ∃ ref p, node.RefersTo ref ∧ Supported areas ref ∧ Pointer.parse? ref = some p ∧
        ∃ place, BreaksAt document p.segments place) ∧
    (∀ v, resolve document areas node = .ok v ↔
      ∃ ref p, node.RefersTo ref ∧ Supported areas ref ∧ Pointer.parse? ref = some p ∧
        document.at? p.segments = some v) ∧
    (∀ other cause, resolve document areas node = .error cause →
      cause.kind ≠ .unresolvedPath → resolve other areas node = .error cause) ∧
    (∀ v, resolve document areas node = .ok v →
      ∃ area ∈ areas, ∃ q name rest, Pointer.parse? area = some q ∧
        document.at? (q.segments ++ name :: rest) = some v) ∧
    ∀ others, (∀ area, area ∈ areas ↔ area ∈ others) →
      kindOf (resolve document areas node) = kindOf (resolve document others node) := by
  have hresolution := resolution document areas node
  have hok (v : Value) : resolve document areas node = .ok v ↔ ∃ ref p, node.RefersTo ref ∧
      Supported areas ref ∧ Pointer.parse? ref = some p ∧ document.at? p.segments = some v :=
    kindOf_eq_ok_iff.symm.trans hresolution.ok_iff
  refine ⟨hresolution.notAReference_iff, ?_, hresolution.unresolvedPath_iff, hok, ?_, ?_, ?_⟩
  · simp only [hresolution.unsupportedTarget_iff, not_supported_iff]
  · intro other cause hfails hkind
    exact resolve_eq_error_of_ne hfails hkind other
  · intro v hv
    obtain ⟨ref, p, -, hsupported, hp, hplace⟩ := (hok v).mp hv
    obtain ⟨p', hp', area, harea, q, hq, name, rest, hsegments⟩ := hsupported.below
    obtain rfl := Option.some.inj (hp.symm.trans hp')
    exact ⟨area, harea, q, name, rest, hq, hsegments ▸ hplace⟩
  · intro others hareas
    exact hresolution.kindOf_eq (resolution document others node) hareas

namespace Lone

/-- A document with one schema. -/
def root : Value :=
  .mapping [(.str "components", .mapping [(.str "schemas", .mapping [
    (.str "pet", .mapping [(.str "type", .str "string")])])])]

/-- The supported places, one of which the document does not have. -/
def places : List String := ["#/definitions", "#/components/schemas"]

end Lone

/-- The type of the schema is found whatever the order of the areas, a name that only begins as an
area does is refused without a document, and the path through the type breaks off. -/
theorem resolve_outcome_lone :
    kindOf (resolve Lone.root ("#/components/schemas" :: Lone.places)
        (.reference "#/components/schemas/pet/type")) = .ok (.str "string") ∧
      resolve .null Lone.places (.reference "#/components/schemasX/pet") =
        .error (.outsideAreas "#/components/schemasX/pet" Lone.places) ∧
      kindOf (resolve Lone.root Lone.places (.reference "#/components/schemas/pet/type/x")) =
        .error .unresolvedPath := by
  have hareas (area : String) : area ∈ Lone.places ↔ area ∈ "#/components/schemas" :: Lone.places := by
    simp [Lone.places, or_comm]
  have hfound : kindOf (resolve Lone.root Lone.places
      (.reference "#/components/schemas/pet/type")) = .ok (.str "string") := rfl
  have hrefused : resolve Lone.root Lone.places (.reference "#/components/schemasX/pet") =
      .error (.outsideAreas "#/components/schemasX/pet" Lone.places) := rfl
  obtain ⟨-, -, -, -, -, -, hset⟩ :=
    resolve_outcome Lone.root (.reference "#/components/schemas/pet/type") Lone.places
  obtain ⟨-, -, -, -, hsame, -⟩ :=
    resolve_outcome Lone.root (.reference "#/components/schemasX/pet") Lone.places
  obtain ⟨-, -, hbreaks, -⟩ :=
    resolve_outcome Lone.root (.reference "#/components/schemas/pet/type/x") Lone.places
  refine ⟨(hset _ hareas).symm.trans hfound, hsame .null _ hrefused (by decide), ?_⟩
  have hpointer : supportedPointer Lone.places "#/components/schemas/pet/type/x" =
      .ok ⟨"#/components/schemas/pet/type/x", ["components", "schemas", "pet", "type", "x"]⟩ := rfl
  obtain ⟨hsupported, hp⟩ := supportedPointer_ok_iff.mp hpointer
  have hplace : BreaksAt Lone.root ["components", "schemas", "pet", "type", "x"]
      ["components", "schemas", "pet", "type", "x"] :=
    ⟨["components", "schemas", "pet", "type"], "x", [], .str "string", rfl, rfl, rfl, by simp⟩
  exact hbreaks.mpr ⟨_, _, ⟨_, rfl, rfl⟩, hsupported, hp, _, hplace⟩

end ApiSchema
