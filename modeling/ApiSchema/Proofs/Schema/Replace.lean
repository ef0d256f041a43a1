/-
A node with its schemas replaced.

`Entries.mapSchemas g` is the node in which every schema `c` has given way to
`g c`, slot by slot.  It is what a walk makes of a node, once one knows what the
walk makes of its schemas; that is `Proofs/Schema/Walk.lean`.  Here stands what
such a node has in common with the one it was made from: its keys and their
order, every value outside of the slots and, as long as `g` keeps mappings, the
slots that hold schemas.

Only the first entry of a key is ever read or overwritten, so nothing here
depends on keys being distinct.
-/
import ApiSchema.Proofs.Schema.Content
import Mathlib.Data.List.Forall2

namespace ApiSchema

theorem Slot.ne_keyword {name : String} (h : ofKey? (.str name) = none) (slot : Slot) :
    name ≠ slot.keyword := by
  rintro rfl
  rw [ofKey?_keyword] at h
  cases h

namespace Entries

variable {es acc : Entries} {g h : Value → Value}

/-! ### Writing to slots -/

/-- Puts new values under the keywords of slots, one slot after the other. -/
def setSlots (new : Slot → Option Value) (slots : List Slot) (es : Entries) : Entries :=
  slots.foldl
    (fun acc slot => match new slot with
      | some v => set acc slot.keyword v
      | none => acc)
    es

theorem setSlots_cons (new : Slot → Option Value) (slot : Slot) (slots : List Slot)
    (es : Entries) : setSlots new (slot :: slots) es =
      setSlots new slots (match new slot with
        | some v => set es slot.keyword v
        | none => es) := rfl

theorem get?_setSlots_of_ne (new : Slot → Option Value) (slots : List Slot) {name : String}
    (hname : Slot.ofKey? (.str name) = none) :
    get? (setSlots new slots es) name = get? es name := by
  induction slots generalizing es with
  | nil => rfl
  | cons slot slots ih =>
    rw [setSlots_cons, ih]
    cases new slot with
    | none => rfl
    | some v => exact get?_set_of_ne (Slot.ne_keyword hname slot)

theorem get?_setSlots (new : Slot → Option Value) (slots : List Slot) (slot : Slot) :
    get? (setSlots new slots es) slot.keyword =
      if slot ∈ slots then (new slot).or (get? es slot.keyword) else get? es slot.keyword := by
  induction slots generalizing es with
  | nil => rfl
  | cons first slots ih =>
    rw [setSlots_cons, ih]
    by_cases hfirst : slot = first
    · subst hfirst
      cases hnew : new slot <;> simp
    · have hne : slot.keyword ≠ first.keyword := fun hc => hfirst (Slot.keyword_inj.mp hc)
      have hstep : get? (match new first with
          | some v => set es first.keyword v
          | none => es) slot.keyword = get? es slot.keyword := by
        cases new first with
        | none => rfl
        | some v => exact get?_set_of_ne hne
      rw [hstep]
      simp [hfirst]

/-- Two nodes that agree entry by entry still do when the second one is
overwritten at a key, if they may differ there. -/
theorem forall₂_set {R : Scalar × Value → Scalar × Value → Prop} {name : String} {v w : Value}
    (hkey : ∀ e e', R e e' → e'.1 = e.1) (hget : get? es name = some v)
    (hw : R (.str name, v) (.str name, w)) (hes : List.Forall₂ R es acc) :
    List.Forall₂ R es (set acc name w) := by
  induction hes with
  | nil => simp at hget
  | @cons e e' rest rest' he hrest ih =>
    obtain ⟨k, x⟩ := e
    obtain ⟨k', x'⟩ := e'
    obtain rfl : k' = k := hkey _ _ he
    rw [get?_cons] at hget
    rw [set]
    by_cases hk : k' = .str name
    · rw [if_pos hk] at hget ⊢
      cases hget
      subst hk
      exact .cons hw hrest
    · rw [if_neg hk] at hget ⊢
      exact .cons he (ih hget)

/-! ### Entries that hold no schemas -/

/-- The entry holds schemas under the keyword of a slot. -/
def holdsSchemas (e : Scalar × Value) : Bool :=
  ((Slot.ofKey? e.1).bind fun slot => slot.content? e.2).isSome

/-- The entries of a node that hold no schemas, in order. -/
def own (es : Entries) : Entries := es.filter fun e => !holdsSchemas e

theorem holdsSchemas_keyword (slot : Slot) (v : Value) :
    holdsSchemas (.str slot.keyword, v) = (slot.content? v).isSome := by
  simp [holdsSchemas, Slot.ofKey?_keyword]

theorem holdsSchemas_of_ne {name : String} (hname : Slot.ofKey? (.str name) = none) (v : Value) :
    holdsSchemas (.str name, v) = false := by
  simp [holdsSchemas, hname]

/-- Leaving out entries under other keys does not change what is read. -/
theorem get?_filter {p : Scalar × Value → Bool} {name : String}
    (hp : ∀ v, p (.str name, v) = true) : get? (es.filter p) name = get? es name := by
  induction es with
  | nil => rfl
  | cons e rest ih =>
    obtain ⟨k, v⟩ := e
    by_cases hk : k = .str name
    · subst hk
      simp [hp, get?_cons]
    · by_cases hpe : p (k, v) = true
      · simp [hpe, get?_cons, hk, ih]
      · simp [hpe, get?_cons, hk, ih]

theorem get?_own_of_ne {name : String} (hname : Slot.ofKey? (.str name) = none) :
    get? (own es) name = get? es name :=
  get?_filter fun v => by simp [holdsSchemas_of_ne hname v]

/-! ### Replacing schemas -/

/-- The node with every schema in its slots replaced. -/
def mapSchemas (g : Value → Value) (es : Entries) : Entries :=
  setSlots (fun slot => (content? es slot).map fun c => (c.map g).toValue) Slot.all es

theorem mapSchemas_congr (hgh : ∀ c ∈ subschemas es, g c = h c) :
    mapSchemas g es = mapSchemas h es := by
  have hnew : (fun slot => (content? es slot).map fun c => (c.map g).toValue) =
      fun slot => (content? es slot).map fun c => (c.map h).toValue := by
    funext slot
    cases hc : content? es slot with
    | none => rfl
    | some c =>
      have := Content.map_congr fun v hv => hgh v (mem_subschemas.mpr ⟨slot, c, hc, hv⟩)
      simp [this]
  rw [mapSchemas, mapSchemas, hnew]

theorem get?_mapSchemas_of_ne {name : String} (hname : Slot.ofKey? (.str name) = none) :
    get? (mapSchemas g es) name = get? es name :=
  get?_setSlots_of_ne _ _ hname

theorem get?_mapSchemas (slot : Slot) :
    get? (mapSchemas g es) slot.keyword =
      ((content? es slot).map fun c => (c.map g).toValue).or (get? es slot.keyword) := by
  rw [mapSchemas, get?_setSlots, if_pos (Slot.mem_all slot)]

@[simp] theorem ref?_mapSchemas : ref? (mapSchemas g es) = ref? es := by
  rw [ref?, ref?, get?_mapSchemas_of_ne (by decide)]

/-- What holds between an entry and itself, and between the old and the new
entry of every slot, holds entry by entry. -/
theorem forall₂_setSlots {new : Slot → Content Value → Value}
    {R : Scalar × Value → Scalar × Value → Prop} (hrefl : ∀ e, R e e)
    (hkey : ∀ e e', R e e' → e'.1 = e.1)
    (hslot : ∀ slot c, content? es slot = some c →
      R (.str slot.keyword, c.toValue) (.str slot.keyword, new slot c)) :
    List.Forall₂ R es (setSlots (fun slot => (content? es slot).map (new slot)) Slot.all es) := by
  have run (slots : List Slot) : ∀ acc, List.Forall₂ R es acc → List.Forall₂ R es
      (setSlots (fun slot => (content? es slot).map (new slot)) slots acc) := by
    induction slots with
    | nil => intro acc h; exact h
    | cons slot slots ih =>
      intro acc h
      rw [setSlots_cons]
      refine ih _ ?_
      cases hc : content? es slot with
      | none => exact h
      | some c =>
        obtain ⟨v, hv, hcv⟩ := Option.bind_eq_some_iff.mp hc
        have hw := hslot slot c hc
        rw [Slot.toValue_of_content? hcv] at hw
        exact forall₂_set hkey hv hw h
  exact run Slot.all es (List.forall₂_same.mpr fun e _ => hrefl e)

theorem forall₂_mapSchemas {R : Scalar × Value → Scalar × Value → Prop} (hrefl : ∀ e, R e e)
    (hkey : ∀ e e', R e e' → e'.1 = e.1)
    (hslot : ∀ slot c, content? es slot = some c →
      R (.str slot.keyword, c.toValue) (.str slot.keyword, (c.map g).toValue)) :
    List.Forall₂ R es (mapSchemas g es) :=
  forall₂_setSlots hrefl hkey hslot

/-- New values for slots that hold schemas leave the keys and all other values as they are. -/
theorem keeps_setSlots (new : Slot → Content Value → Value) (es : Entries) :
    List.Forall₂ (fun e e' => e'.1 = e.1 ∧ (holdsSchemas e = false → e'.2 = e.2)) es
      (setSlots (fun slot => (content? es slot).map (new slot)) Slot.all es) := by
  refine forall₂_setSlots (fun e => ⟨rfl, fun _ => rfl⟩) (fun _ _ h => h.1) ?_
  intro slot c hc
  obtain ⟨v, -, hcv⟩ := Option.bind_eq_some_iff.mp hc
  refine ⟨rfl, fun hno => ?_⟩
  simp [holdsSchemas_keyword, Slot.toValue_of_content? hcv, hcv] at hno

/-- The second node is the first one with its schemas replaced: the same keys in
the same order, the same value wherever no schemas are held, and in every slot
the same arrangement of the new schemas. -/
structure Replaces (g : Value → Value) (es es' : Entries) : Prop where
  keeps : List.Forall₂ (fun e e' => e'.1 = e.1 ∧ (holdsSchemas e = false → e'.2 = e.2)) es es'
  schemas : ∀ slot c, content? es slot = some c →
    get? es' slot.keyword = some (c.map g).toValue

theorem replaces_mapSchemas (g : Value → Value) (es : Entries) :
    Replaces g es (mapSchemas g es) := by
  refine ⟨keeps_setSlots (fun _ c => (c.map g).toValue) es, fun slot c hc => ?_⟩
  simp [get?_mapSchemas, hc]

theorem keys_mapSchemas : keys (mapSchemas g es) = keys es := by
  have hkeys : List.Forall₂ (fun e e' : Scalar × Value => e.1 = e'.1) es (mapSchemas g es) :=
    (replaces_mapSchemas g es).keeps.imp fun _ _ h => h.1.symm
  rw [keys, keys, eq_comm, ← List.forall₂_eq_eq_eq, List.forall₂_map_left_iff,
    List.forall₂_map_right_iff]
  exact hkeys

/-- Whatever the schemas are replaced by, a slot then holds the new ones or none. -/
theorem content?_mapSchemas_eq_some {slot : Slot} {c : Content Value}
    (h : content? (mapSchemas g es) slot = some c) :
    ∃ old, content? es slot = some old ∧ c = old.map g := by
  rw [content?, get?_mapSchemas] at h
  cases hold : content? es slot with
  | none =>
    rw [hold, Option.map_none, Option.none_or] at h
    exact absurd (hold.symm.trans h) (by simp)
  | some old =>
    obtain ⟨v, -, hv⟩ := Option.bind_eq_some_iff.mp hold
    rw [hold, Option.map_some, Option.some_or, Option.bind_some] at h
    exact ⟨old, rfl, Slot.eq_map_of_content? hv h⟩

/-- The schemas of a node whose schemas are replaced are among the new ones. -/
theorem exists_of_mem_subschemas_mapSchemas {v : Value} (h : v ∈ subschemas (mapSchemas g es)) :
    ∃ c ∈ subschemas es, v = g c := by
  obtain ⟨slot, c, hc, hv⟩ := mem_subschemas.mp h
  obtain ⟨old, hold, rfl⟩ := content?_mapSchemas_eq_some hc
  rw [Content.members_map] at hv
  obtain ⟨m, hm, rfl⟩ := List.mem_map.mp hv
  exact ⟨m, mem_subschemas.mpr ⟨slot, old, hold, hm⟩, rfl⟩

/-- A schema that is replaced by a mapping is among the schemas afterwards.  If it is replaced by
something else, a slot for a single schema holds none any more. -/
theorem mem_subschemas_mapSchemas {v : Value} (hv : v ∈ subschemas es)
    (hmapping : (g v).isMapping = true) : g v ∈ subschemas (mapSchemas g es) := by
  obtain ⟨slot, c, hc, hmem⟩ := mem_subschemas.mp hv
  obtain ⟨old, -, hold⟩ := Option.bind_eq_some_iff.mp hc
  have hone (m : Value) (hm : c.map g = .one m) : m.isMapping = true := by
    cases c with
    | one a =>
      obtain rfl : v = a := by simpa [Content.members] using hmem
      rwa [← Content.one.inj hm]
    | _ => simp [Content.map] at hm
  have hnew : content? (mapSchemas g es) slot = some (c.map g) := by
    rw [content?, get?_mapSchemas, hc, Option.map_some, Option.some_or, Option.bind_some]
    exact Slot.content?_toValue hold (Content.outline_map g c) hone
  refine mem_subschemas.mpr ⟨slot, _, hnew, ?_⟩
  rw [Content.members_map]
  exact List.mem_map_of_mem hmem

/-! ### Changes that keep mappings -/

section KeepsMappings

variable (hg : ∀ c ∈ subschemas es, c.isMapping = true → (g c).isMapping = true)
include hg

theorem content?_mapSchemas (slot : Slot) :
    content? (mapSchemas g es) slot = (content? es slot).map (Content.map g) := by
  rw [content?, get?_mapSchemas]
  cases hc : content? es slot with
  | none => simpa [content?] using hc
  | some c =>
    obtain ⟨v, -, hcv⟩ := Option.bind_eq_some_iff.mp hc
    simpa using Slot.content?_map hcv fun m hm => hg m (mem_subschemas.mpr ⟨slot, c, hc, hm⟩)

/-- The slots hold the answers of `p` for the new schemas where they held the
answers of `q` for the old ones, if these are the same. -/
theorem map_content?_mapSchemas {α : Type} {p q : Value → α}
    (hpq : ∀ c ∈ subschemas es, p (g c) = q c) (slot : Slot) :
    (content? (mapSchemas g es) slot).map (Content.map p) =
      (content? es slot).map (Content.map q) := by
  rw [content?_mapSchemas hg]
  cases hc : content? es slot with
  | none => rfl
  | some c =>
    rw [Option.map_some, Option.map_some, Option.map_some, Content.map_map]
    exact congrArg some
      (Content.map_congr fun v hv => hpq v (mem_subschemas.mpr ⟨slot, c, hc, hv⟩))

/-- The entries that hold no schemas are the same, in the same order. -/
theorem own_mapSchemas : own (mapSchemas g es) = own es := by
  have hpair : List.Forall₂ (fun e e' => (e'.1 = e.1 ∧ holdsSchemas e' = holdsSchemas e) ∧
      (holdsSchemas e = false → e' = e)) es (mapSchemas g es) := by
    refine forall₂_mapSchemas (fun e => ⟨⟨rfl, rfl⟩, fun _ => rfl⟩) (fun _ _ h => h.1.1) ?_
    intro slot c hc
    obtain ⟨v, -, hcv⟩ := Option.bind_eq_some_iff.mp hc
    have hnew := Slot.content?_map hcv fun m hm => hg m (mem_subschemas.mpr ⟨slot, c, hc, hm⟩)
    have hold := Slot.toValue_of_content? hcv
    refine ⟨⟨rfl, ?_⟩, fun hno => ?_⟩
    · simp [holdsSchemas_keyword, hnew, hold, hcv]
    · simp [holdsSchemas_keyword, hold, hcv] at hno
  rw [own, own]
  generalize mapSchemas g es = es' at hpair
  clear hg
  induction hpair with
  | nil => rfl
  | @cons e e' rest rest' he _ ih =>
    obtain ⟨⟨-, hholds⟩, hsame⟩ := he
    cases hh : holdsSchemas e with
    | true => simp [hh, hholds, ih]
    | false => simp [hh, hsame hh, ih]

end KeepsMappings

end Entries

end ApiSchema
