/-
One schema exchanged for another.

`Value.replaceAt` puts a value in the place of a schema and leaves everything else as
it is.  What is put must be a mapping, because a slot for a single schema holds
mappings only; then the value can be read back where it was put (`schemaAt?_replaceAt`),
putting back what was there restores the schema (`replaceAt_self`), and of two values
put at one place the later one counts (`replaceAt_replaceAt`).

The laws are shown for the arrangement of a slot first, then for the node that has the
slot, and last along a place.
-/
import ApiSchema.Proofs.Schema.Calls
import ApiSchema.Proofs.Schema.Replace

namespace ApiSchema

/-! ### One member of a slot -/

section Lists

variable {α β : Type} {l : List α} {i : Nat} {f g : α → α}

/-- A change of one member that a map does not see. -/
theorem map_modify_of_eq {r : α → β} (h : ∀ a, l[i]? = some a → r (f a) = r a) :
    (l.modify i f).map r = l.map r := by
  refine List.ext_getElem? fun n => ?_
  rw [List.getElem?_map, List.getElem?_map, List.getElem?_modify]
  cases hn : l[n]? with
  | none => rfl
  | some a =>
    by_cases hi : i = n
    · simp [hi, h a (hi ▸ hn)]
    · simp [hi]

/-- Only the member with the number matters. -/
theorem modify_congr_of_eq (h : ∀ a, l[i]? = some a → f a = g a) :
    l.modify i f = l.modify i g := by
  refine List.ext_getElem? fun n => ?_
  rw [List.getElem?_modify, List.getElem?_modify]
  cases hn : l[n]? with
  | none => rfl
  | some a =>
    by_cases hi : i = n
    · simp [hi, h a (hi ▸ hn)]
    · simp [hi]

theorem map_modify {r : α → β} {f' : β → β} (h : ∀ a, r (f a) = f' (r a)) :
    (l.modify i f).map r = (l.map r).modify i f' := by
  refine List.ext_getElem? fun n => ?_
  simp only [List.getElem?_map, List.getElem?_modify]
  cases l[n]? with
  | none => rfl
  | some a => by_cases hi : i = n <;> simp [hi, h]

end Lists

namespace Content

variable {α β : Type} {c : Content α} {i : Nat} {f g : α → α}

/-- The same arrangement with one member changed, by its number. -/
def modify (i : Nat) (f : α → α) : Content α → Content α
  | fields es => fields (es.modify i fun e => (e.1, f e.2))
  | one a => one (if i = 0 then f a else a)
  | alternatives kind as => alternatives kind (as.modify i f)

@[simp] theorem members_modify (c : Content α) (i : Nat) (f : α → α) :
    (c.modify i f).members = c.members.modify i f := by
  cases c with
  | fields es => exact map_modify fun _ => rfl
  | one a => cases i <;> simp [modify, members]
  | alternatives kind as => rfl

@[simp] theorem outline_modify (c : Content α) (i : Nat) (f : α → α) :
    (c.modify i f).outline = c.outline := by
  cases c with
  | fields es => exact congrArg fields (map_modify_of_eq fun _ _ => rfl)
  | one a => rfl
  | alternatives kind as => exact congrArg (alternatives kind) (map_modify_of_eq fun _ _ => rfl)

theorem map_modify_of_eq {r : α → β} (h : ∀ a, c.members[i]? = some a → r (f a) = r a) :
    (c.modify i f).map r = c.map r :=
  ext_members (by simp) (by simpa using ApiSchema.map_modify_of_eq h)

theorem modify_modify_of_eq (h : ∀ a, c.members[i]? = some a → g (f a) = g a) :
    (c.modify i f).modify i g = c.modify i g :=
  ext_members (by simp) (by
    rw [members_modify, members_modify, members_modify, List.modify_modify_eq]
    exact modify_congr_of_eq h)

theorem modify_of_eq (h : ∀ a, c.members[i]? = some a → f a = a) : c.modify i f = c :=
  ext_members (by simp) (by simpa using ApiSchema.map_modify_of_eq (r := id) h)

end Content

/-! ### Writing to one slot -/

namespace Entries

variable {es : Entries} {name other : String} {v w : Value} {slot : Slot} {i : Nat}
  {f g : Value → Value}

theorem set_set : set (set es name v) name w = set es name w := by
  induction es with
  | nil => simp [set]
  | cons e es ih =>
    by_cases he : e.1 = .str name
    · simp [set, he]
    · simp only [set, if_neg he, ih]

/-- Where a name is there already, it does not matter which of two names is written first. -/
theorem set_comm (hne : name ≠ other) (h : has es name = true) :
    set (set es name v) other w = set (set es other w) name v := by
  induction es with
  | nil => simp [has] at h
  | cons e es ih =>
    obtain ⟨k, x⟩ := e
    by_cases hname : k = .str name
    · simp [set, hname, hne]
    · have hrest : has es name = true := by simpa [has, get?_cons, hname] using h
      by_cases hother : k = .str other
      · simp [set, hother, hne.symm]
      · simp only [set, if_neg hname, if_neg hother, ih hrest]

/-- What is written to a slot is of no account if the slot is written again. -/
theorem setSlots_set {new : Slot → Option Value} {slots : List Slot} {x : Value}
    (hslot : slot ∈ slots) (hnew : new slot = some x) (h : has es slot.keyword = true) :
    setSlots new slots (set es slot.keyword v) = setSlots new slots es := by
  induction slots generalizing es with
  | nil => simp at hslot
  | cons first slots ih =>
    rw [setSlots_cons, setSlots_cons]
    by_cases hfirst : slot = first
    · subst hfirst
      rw [hnew]
      dsimp only
      rw [set_set]
    · have hrest : slot ∈ slots := (List.mem_cons.mp hslot).resolve_left hfirst
      cases new first with
      | none => exact ih hrest h
      | some y =>
        have hne : slot.keyword ≠ first.keyword := fun hc => hfirst (Slot.keyword_inj.mp hc)
        dsimp only
        rw [set_comm hne h]
        refine ih hrest ?_
        rwa [has, get?_set_of_ne hne]

/-- The node with one of the schemas in a slot changed, by its number. -/
def modifyMember (slot : Slot) (i : Nat) (f : Value → Value) (es : Entries) : Entries :=
  match content? es slot with
  | some c => set es slot.keyword (c.modify i f).toValue
  | none => es

theorem modifyMember_eq_set {c : Content Value} (h : content? es slot = some c) :
    modifyMember slot i f es = set es slot.keyword (c.modify i f).toValue := by
  rw [modifyMember, h]

theorem modifyMember_eq_self (h : content? es slot = none) : modifyMember slot i f es = es := by
  rw [modifyMember, h]

theorem has_of_content? {c : Content Value} (h : content? es slot = some c) :
    has es slot.keyword = true := by
  obtain ⟨x, hx, -⟩ := Option.bind_eq_some_iff.mp h
  rw [has, hx]
  rfl

theorem membersOf_of_content? {c : Content Value} (h : content? es slot = some c) :
    membersOf es slot = c.members := by
  rw [membersOf, h]
  rfl

theorem get?_modifyMember_of_ne (hname : name ≠ slot.keyword) :
    get? (modifyMember slot i f es) name = get? es name := by
  rw [modifyMember]
  split
  · exact get?_set_of_ne hname
  · rfl

@[simp] theorem ref?_modifyMember : ref? (modifyMember slot i f es) = ref? es := by
  rw [ref?, ref?, get?_modifyMember_of_ne (Slot.ne_keyword (by decide) slot)]

theorem keys_modifyMember : keys (modifyMember slot i f es) = keys es := by
  rw [modifyMember]
  split
  · next c hc => exact keys_set_of_has (has_of_content? hc)
  · rfl

theorem content?_modifyMember_of_ne {slot' : Slot} (hslot : slot' ≠ slot) :
    content? (modifyMember slot i f es) slot' = content? es slot' := by
  rw [content?, content?, get?_modifyMember_of_ne fun h => hslot (Slot.keyword_inj.mp h)]

/-- A change that does nothing to the schema. -/
theorem modifyMember_of_eq (h : ∀ c, (membersOf es slot)[i]? = some c → f c = c) :
    modifyMember slot i f es = es := by
  cases hc : content? es slot with
  | none => exact modifyMember_eq_self hc
  | some c =>
    rw [membersOf_of_content? hc] at h
    obtain ⟨x, hx, hcx⟩ := Option.bind_eq_some_iff.mp hc
    rw [modifyMember_eq_set hc, Content.modify_of_eq h, Slot.toValue_of_content? hcx]
    exact set_of_get? hx

section KeepsMappings

variable (hf : ∀ c, (membersOf es slot)[i]? = some c → c.isMapping = true → (f c).isMapping = true)
include hf

theorem content?_modifyMember :
    content? (modifyMember slot i f es) slot = (content? es slot).map (Content.modify i f) := by
  cases hc : content? es slot with
  | none => rw [modifyMember_eq_self hc, hc, Option.map_none]
  | some c =>
    obtain ⟨x, -, hcx⟩ := Option.bind_eq_some_iff.mp hc
    rw [modifyMember_eq_set hc, content?, get?_set_self, Option.bind_some, Option.map_some]
    refine Slot.content?_toValue hcx (Content.outline_modify c i f) fun m hm => ?_
    cases c with
    | one a =>
      have ha := Slot.isMapping_of_content? hcx
      rw [← Content.one.inj hm]
      split
      · next hi =>
        subst hi
        exact hf a (by rw [membersOf_of_content? hc]; rfl) ha
      · exact ha
    | _ => simp [Content.modify] at hm

theorem membersOf_modifyMember :
    membersOf (modifyMember slot i f es) slot = (membersOf es slot).modify i f := by
  rw [membersOf, membersOf, content?_modifyMember hf]
  cases content? es slot with
  | none => simp
  | some c => simp

/-- The schemas of the node are the old ones, and the changed one. -/
theorem mem_subschemas_modifyMember {d : Value} (h : d ∈ subschemas (modifyMember slot i f es)) :
    d ∈ subschemas es ∨ ∃ c, (membersOf es slot)[i]? = some c ∧ d = f c := by
  obtain ⟨slot', -, hd⟩ := List.mem_flatMap.mp h
  by_cases hslot : slot' = slot
  · subst hslot
    have hmem : d ∈ (membersOf es slot').modify i f := membersOf_modifyMember hf ▸ hd
    obtain ⟨n, hn⟩ := List.mem_iff_getElem?.mp hmem
    rw [List.getElem?_modify] at hn
    obtain ⟨c, hc, hcd⟩ := Option.map_eq_some_iff.mp hn
    by_cases hi : i = n
    · subst hi
      exact .inr ⟨c, hc, by simpa using hcd.symm⟩
    · rw [if_neg hi] at hcd
      exact .inl (mem_subschemas_of_membersOf (hcd ▸ List.mem_of_getElem? hc))
  · have hmem : d ∈ membersOf es slot' := by
      rw [membersOf, ← content?_modifyMember_of_ne hslot]
      exact hd
    exact .inl (mem_subschemas_of_membersOf hmem)

/-- Of two changes of one schema only the later one counts, if it gives the same for both. -/
theorem modifyMember_modifyMember (h : ∀ c, (membersOf es slot)[i]? = some c → g (f c) = g c) :
    modifyMember slot i g (modifyMember slot i f es) = modifyMember slot i g es := by
  cases hc : content? es slot with
  | none => rw [modifyMember_eq_self hc]
  | some c =>
    have hnew : content? (modifyMember slot i f es) slot = some (c.modify i f) := by
      rw [content?_modifyMember hf, hc, Option.map_some]
    rw [membersOf_of_content? hc] at h
    rw [modifyMember_eq_set hnew, modifyMember_eq_set hc, modifyMember_eq_set hc, set_set,
      Content.modify_modify_of_eq h]

/-- Replacing all schemas does not see a change of one for which there is the same replacement. -/
theorem mapSchemas_modifyMember (h : ∀ c, (membersOf es slot)[i]? = some c → g (f c) = g c) :
    mapSchemas g (modifyMember slot i f es) = mapSchemas g es := by
  cases hc : content? es slot with
  | none => rw [modifyMember_eq_self hc]
  | some c =>
    have hnew (slot' : Slot) :
        ((content? (modifyMember slot i f es) slot').map fun c => (c.map g).toValue) =
          (content? es slot').map fun c => (c.map g).toValue := by
      by_cases hslot : slot' = slot
      · subst hslot
        rw [membersOf_of_content? hc] at h
        rw [content?_modifyMember hf, hc, Option.map_some, Option.map_some, Option.map_some,
          Content.map_modify_of_eq h]
      · rw [content?_modifyMember_of_ne hslot]
    rw [mapSchemas, mapSchemas, funext hnew, modifyMember_eq_set hc]
    exact setSlots_set (Slot.mem_all slot) (by rw [hc, Option.map_some]) (has_of_content? hc)

end KeepsMappings

end Entries

/-! ### Along a place -/

namespace Value

open Entries (modifyMember membersOf)

variable {v old new newer : Value} {place : Place}

/-- The schema with another value at a place; the schema itself, if there is no such place in it. -/
def replaceAt (v : Value) (place : Place) (new : Value) : Value :=
  match place, v with
  | [], _ => new
  | (slot, i) :: place, .mapping es =>
    .mapping (modifyMember slot i (fun c => replaceAt c place new) es)
  | _ :: _, v => v

@[simp] theorem replaceAt_nil (v new : Value) : v.replaceAt [] new = new := by
  cases v <;> rfl

theorem replaceAt_cons (es : Entries) (slot : Slot) (i : Nat) (place : Place) (new : Value) :
    (mapping es).replaceAt ((slot, i) :: place) new =
      .mapping (modifyMember slot i (fun c => c.replaceAt place new) es) := rfl

theorem isMapping_replaceAt (hnew : new.isMapping = true) (h : v.isMapping = true) :
    (v.replaceAt place new).isMapping = true := by
  cases place with
  | nil => rwa [replaceAt_nil]
  | cons step place =>
    cases v with
    | mapping es => rfl
    | _ => simp [isMapping] at h

/-- A schema that has a place further down is a node. -/
theorem exists_member_of_schemaAt?_cons {step : Slot × Nat}
    (h : v.schemaAt? (step :: place) = some old) :
    ∃ es c, v = .mapping es ∧ (membersOf es step.1)[step.2]? = some c ∧
      c.schemaAt? place = some old := by
  obtain ⟨slot, i⟩ := step
  cases v with
  | mapping es =>
    obtain ⟨c, hc, hplace⟩ := Option.bind_eq_some_iff.mp h
    exact ⟨es, c, rfl, hc, hplace⟩
  | _ => simp [schemaAt?, entries?] at h

/-- What is put at a place stands there. -/
theorem schemaAt?_replaceAt (hnew : new.isMapping = true) (h : v.schemaAt? place = some old) :
    (v.replaceAt place new).schemaAt? place = some new := by
  induction place generalizing v with
  | nil => rw [replaceAt_nil]; rfl
  | cons step place ih =>
    obtain ⟨es, c, rfl, hc, hplace⟩ := exists_member_of_schemaAt?_cons h
    rw [replaceAt_cons, schemaAt?_cons, Entries.membersOf_modifyMember, List.getElem?_modify, hc]
    · simpa using ih hplace
    · exact fun _ _ => isMapping_replaceAt hnew

/-- Putting what is there changes nothing. -/
theorem replaceAt_self (h : v.schemaAt? place = some old) : v.replaceAt place old = v := by
  induction place generalizing v with
  | nil => exact (replaceAt_nil v old).trans (Option.some.inj h).symm
  | cons step place ih =>
    obtain ⟨es, c, rfl, hc, hplace⟩ := exists_member_of_schemaAt?_cons h
    rw [replaceAt_cons, Entries.modifyMember_of_eq]
    intro c' hc'
    obtain rfl := Option.some.inj (hc.symm.trans hc')
    exact ih hplace

/-- Of two values that are put at a place, the later one counts. -/
theorem replaceAt_replaceAt (hnew : new.isMapping = true) (h : v.schemaAt? place = some old) :
    (v.replaceAt place new).replaceAt place newer = v.replaceAt place newer := by
  induction place generalizing v with
  | nil => simp
  | cons step place ih =>
    obtain ⟨es, c, rfl, hc, hplace⟩ := exists_member_of_schemaAt?_cons h
    rw [replaceAt_cons, replaceAt_cons, replaceAt_cons, Entries.modifyMember_modifyMember]
    · exact fun _ _ => isMapping_replaceAt hnew
    · intro c' hc'
      obtain rfl := Option.some.inj (hc.symm.trans hc')
      exact ih hplace

end Value

end ApiSchema
