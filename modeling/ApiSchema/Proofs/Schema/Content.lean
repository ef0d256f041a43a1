/-
What the slots of a node hold, and recursion over a schema.

A slot holds further schemas in one of three arrangements: one under each name,
a single one, or alternatives in an array.  `Content` is that arrangement over
any type, so that it can hold the schemas themselves, what a walk makes of them,
or what they mean.

`Value.schemaRec` is induction over the places of schemas, and `Value.fold` is
recursion over them.  A value is a deeper tree than a schema: most of it, such
as the values under `enum` or `example`, is never visited.  Induction over
`Value` itself would have to say something about those places too.
-/
import ApiSchema.Schema.Shape

namespace ApiSchema

/-- What a slot holds, in the arrangement of the slot. -/
inductive Content (α : Type) where
  /-- One member under each name. -/
  | fields (entries : List (Scalar × α))
  /-- A single member. -/
  | one (member : α)
  /-- An array of members. -/
  | alternatives (kind : ArrayKind) (items : List α)

namespace Content

variable {α β γ : Type}

/-- The same arrangement with every member replaced. -/
def map (g : α → β) : Content α → Content β
  | fields es => fields (es.map fun e => (e.1, g e.2))
  | one a => one (g a)
  | alternatives kind as => alternatives kind (as.map g)

/-- The members, in order. -/
def members : Content α → List α
  | fields es => es.map (·.2)
  | one a => [a]
  | alternatives _ as => as

/-- The value that a slot has when it holds this. -/
def toValue : Content Value → Value
  | fields es => .mapping es
  | one v => v
  | alternatives kind vs => .array kind vs

/-- The arrangement without its members. -/
def outline (c : Content α) : Content Unit := c.map fun _ => ()

@[simp] theorem members_map (g : α → β) (c : Content α) : (c.map g).members = c.members.map g := by
  cases c <;> simp [map, members]

theorem map_map (g : α → β) (h : β → γ) (c : Content α) :
    (c.map g).map h = c.map fun a => h (g a) := by
  cases c <;> simp [map]

theorem map_congr {c : Content α} {g h : α → β} (hgh : ∀ a ∈ c.members, g a = h a) :
    c.map g = c.map h := by
  cases c with
  | fields es =>
    simp only [map, fields.injEq, List.map_inj_left]
    intro e he
    rw [hgh e.2 (List.mem_map_of_mem he)]
  | one a => simpa [map, members] using hgh
  | alternatives kind as => simpa [map, members] using hgh

@[simp] theorem outline_map (g : α → β) (c : Content α) : (c.map g).outline = c.outline := by
  rw [outline, map_map, outline]

/-- An arrangement and its members are all there is. -/
theorem ext_members {c c' : Content α} (houtline : c'.outline = c.outline)
    (hmembers : c'.members = c.members) : c' = c := by
  cases c <;> cases c' <;> simp only [outline, map, members, fields.injEq, alternatives.injEq,
    reduceCtorEq, List.cons.injEq, and_true] at houtline hmembers
  · next es es' =>
    have hkeys : es'.map (·.1) = es.map (·.1) := by
      simpa [List.map_map, Function.comp_def] using congrArg (List.map Prod.fst) houtline
    rw [fields.injEq, ← List.zip_unzip es', ← List.zip_unzip es, List.unzip_eq_map,
      List.unzip_eq_map]
    simp only [hkeys, hmembers]
  · rw [hmembers]
  · rw [hmembers, houtline.1]

end Content

/-! ### The content of a slot -/

/-- The schemas that the value of a slot holds, if it has the form of the slot. -/
def Slot.content? (slot : Slot) : Value → Option (Content Value)
  | .mapping es => match slot with
    | .properties => some (.fields es)
    | .items | .additionalProperties => some (.one (.mapping es))
    | .oneOf | .anyOf | .allOf => none
  | .array kind vs => match slot with
    | .oneOf | .anyOf | .allOf => some (.alternatives kind vs)
    | .properties | .items | .additionalProperties => none
  | .scalar _ => none

namespace Slot

variable {slot : Slot} {v : Value} {c : Content Value}

theorem toValue_of_content? (h : slot.content? v = some c) : c.toValue = v := by
  cases v with
  | scalar s => simp [content?] at h
  | array kind vs => cases slot <;> simp [content?] at h <;> rw [← h] <;> rfl
  | mapping es => cases slot <;> simp [content?] at h <;> rw [← h] <;> rfl

/-- What stands alone in a slot is a mapping. -/
theorem isMapping_of_content? {m : Value} (h : slot.content? v = some (.one m)) :
    m.isMapping = true := by
  cases v <;> cases slot <;> simp [content?] at h <;> rw [← h] <;> rfl

/-- What has the arrangement of the content of a slot has the form of the slot, if a single member
is a mapping. -/
theorem content?_toValue {c' : Content Value} (h : slot.content? v = some c)
    (houtline : c'.outline = c.outline) (hone : ∀ m, c' = .one m → m.isMapping = true) :
    slot.content? c'.toValue = some c' := by
  cases v with
  | scalar s => simp [content?] at h
  | array kind vs =>
    cases slot <;> simp only [content?, reduceCtorEq, Option.some.injEq] at h <;> subst h <;>
      cases c' <;> simp [Content.outline, Content.map] at houtline <;> rfl
  | mapping es =>
    cases c' with
    | fields es' =>
      cases slot <;> simp only [content?, reduceCtorEq, Option.some.injEq] at h <;> subst h <;>
        simp [Content.outline, Content.map] at houtline
      rfl
    | one m =>
      obtain ⟨fs, rfl⟩ : ∃ fs, m = .mapping fs := by
        have hm := hone m rfl
        cases m <;> simp [Value.isMapping] at hm ⊢
      cases slot <;> simp only [content?, reduceCtorEq, Option.some.injEq] at h <;> subst h <;>
        simp [Content.outline, Content.map] at houtline <;> rfl
    | alternatives kind vs =>
      cases slot <;> simp only [content?, reduceCtorEq, Option.some.injEq] at h <;> subst h <;>
        simp [Content.outline, Content.map] at houtline

/-- A change that keeps mappings keeps the form of the slot. -/
theorem content?_map {g : Value → Value} (h : slot.content? v = some c)
    (hg : ∀ m ∈ c.members, m.isMapping = true → (g m).isMapping = true) :
    slot.content? (c.map g).toValue = some (c.map g) := by
  refine content?_toValue h (Content.outline_map g c) fun m hm => ?_
  cases c with
  | one a =>
    rw [← Content.one.inj hm]
    exact hg a (by simp [Content.members]) (isMapping_of_content? h)
  | _ => simp [Content.map] at hm

/-- A changed content that still has the form of the slot is what the slot holds. -/
theorem eq_map_of_content? {g : Value → Value} {c' : Content Value} (h : slot.content? v = some c)
    (h' : slot.content? (c.map g).toValue = some c') : c' = c.map g := by
  cases v with
  | scalar s => simp [content?] at h
  | array kind vs =>
    cases slot <;> simp [content?] at h <;> subst h <;> exact (Option.some.inj h').symm
  | mapping es =>
    have single (hc : c = .one (.mapping es)) (hslot : slot.content? (g (.mapping es)) = some c')
        (hone : ∀ fs, slot.content? (.mapping fs) = some (.one (.mapping fs)))
        (hnone : ∀ kind vs, slot.content? (.array kind vs) = none) : c' = c.map g := by
      subst hc
      cases hm : g (.mapping es) with
      | scalar s => simp [hm, content?] at hslot
      | array kind vs => simp [hm, hnone] at hslot
      | mapping fs =>
        rw [hm, hone] at hslot
        rw [Content.map, hm, ← Option.some.inj hslot]
    cases slot <;> simp [content?] at h <;> subst h
    · exact (Option.some.inj h').symm
    · exact single rfl h' (fun _ => rfl) fun _ _ => rfl
    · exact single rfl h' (fun _ => rfl) fun _ _ => rfl

theorem sizeOf_lt_of_content? {m : Value} (h : slot.content? v = some c) (hm : m ∈ c.members) :
    sizeOf m < sizeOf v + 1 := by
  cases v with
  | scalar s => simp [content?] at h
  | array kind vs =>
    have hvs : m ∈ vs → sizeOf m < sizeOf vs := List.sizeOf_lt_of_mem
    cases slot <;> simp [content?] at h <;> subst h <;> simp [Content.members] at hm ⊢
    all_goals
      have := hvs hm
      omega
  | mapping es =>
    cases slot <;> simp [content?] at h <;> subst h <;> simp [Content.members] at hm
    · obtain ⟨k, hk⟩ := hm
      have := List.sizeOf_lt_of_mem hk
      simp at this ⊢
      omega
    · subst hm; omega
    · subst hm; omega

end Slot

namespace Entries

variable {es : Entries} {v : Value}

/-- The schemas that a slot of a node holds. -/
def content? (es : Entries) (slot : Slot) : Option (Content Value) :=
  (get? es slot.keyword).bind slot.content?

/-- The schemas that a node holds, in the order in which they are visited. -/
def subschemas (es : Entries) : List Value :=
  Slot.all.flatMap fun slot => ((content? es slot).map Content.members).getD []

theorem mem_subschemas :
    v ∈ subschemas es ↔ ∃ slot c, content? es slot = some c ∧ v ∈ c.members := by
  simp only [subschemas, List.mem_flatMap]
  constructor
  · rintro ⟨slot, -, hv⟩
    cases hc : content? es slot with
    | none => simp [hc] at hv
    | some c => exact ⟨slot, c, hc, by simpa [hc] using hv⟩
  · rintro ⟨slot, c, hc, hv⟩
    exact ⟨slot, Slot.mem_all slot, by simpa [hc] using hv⟩

theorem sizeOf_lt_of_get? {name : String} (h : get? es name = some v) :
    sizeOf v < sizeOf es := by
  induction es with
  | nil => simp at h
  | cons e rest ih =>
    obtain ⟨k, w⟩ := e
    rw [get?_cons] at h
    split at h
    · cases h
      simp
      omega
    · have := ih h
      simp
      omega

theorem sizeOf_lt_of_mem_subschemas (h : v ∈ subschemas es) :
    sizeOf v < sizeOf (Value.mapping es) := by
  obtain ⟨slot, c, hc, hv⟩ := mem_subschemas.mp h
  obtain ⟨w, hw, hcw⟩ := Option.bind_eq_some_iff.mp hc
  have hin := Slot.sizeOf_lt_of_content? hcw hv
  have hout := sizeOf_lt_of_get? hw
  simp
  omega

end Entries

/-! ### Recursion over the places of schemas -/

namespace Value

/-- Induction over the places of schemas. -/
theorem schemaRec {P : Value → Prop} (atom : ∀ v, v.isMapping = false → P v)
    (node : ∀ es, (∀ c ∈ Entries.subschemas es, P c) → P (.mapping es)) (v : Value) : P v := by
  induction h : sizeOf v using Nat.strongRecOn generalizing v with
  | ind n ih =>
    cases v with
    | scalar s => exact atom _ rfl
    | array kind items => exact atom _ rfl
    | mapping es =>
      refine node es fun c hc => ih (sizeOf c) ?_ c rfl
      rw [← h]
      exact Entries.sizeOf_lt_of_mem_subschemas hc

variable {α : Type} (atom : Value → α) (node : Entries → (Slot → Option (Content α)) → α)

mutual

/-- Recursion over the places of schemas: `atom` answers for a value that is not a mapping, and
`node` for a mapping, given the answers for the schemas in its slots. -/
def fold : Value → α
  | .mapping es => node es fun slot => ((foldSlots es).lookup slot).join
  | .array kind items => atom (.array kind items)
  | .scalar s => atom (.scalar s)

/-- The answers for the value of a slot. -/
def foldSlot (slot : Slot) : Value → Option (Content α)
  | .mapping es => match slot with
    | .properties => some (.fields (foldFields es))
    | .items | .additionalProperties =>
      some (.one (node es fun slot => ((foldSlots es).lookup slot).join))
    | .oneOf | .anyOf | .allOf => none
  | .array kind items => match slot with
    | .oneOf | .anyOf | .allOf => some (.alternatives kind (foldItems items))
    | .properties | .items | .additionalProperties => none
  | .scalar _ => none

/-- The answers for the slots of a node, in the order of its entries. -/
def foldSlots : List (Scalar × Value) → List (Slot × Option (Content α))
  | [] => []
  | (k, v) :: rest => match Slot.ofKey? k with
    | none => foldSlots rest
    | some slot => (slot, foldSlot slot v) :: foldSlots rest

/-- The answers for the values of a mapping. -/
def foldFields : List (Scalar × Value) → List (Scalar × α)
  | [] => []
  | (k, v) :: rest => (k, fold v) :: foldFields rest

/-- The answers for items. -/
def foldItems : List Value → List α
  | [] => []
  | v :: vs => fold v :: foldItems vs

end

theorem foldFields_eq (es : List (Scalar × Value)) :
    foldFields atom node es = es.map fun e => (e.1, fold atom node e.2) := by
  induction es with
  | nil => rfl
  | cons e rest ih => simp [foldFields, ih]

theorem foldItems_eq (vs : List Value) : foldItems atom node vs = vs.map (fold atom node) := by
  induction vs with
  | nil => rfl
  | cons v rest ih => simp [foldItems, ih]

theorem foldSlot_eq (slot : Slot) (v : Value) :
    foldSlot atom node slot v = (slot.content? v).map (Content.map (fold atom node)) := by
  cases v with
  | scalar s => rfl
  | array kind items => cases slot <;> simp [foldSlot, Slot.content?, Content.map, foldItems_eq]
  | mapping es => cases slot <;> simp [foldSlot, Slot.content?, Content.map, foldFields_eq, fold]

theorem lookup_foldSlots (es : Entries) (slot : Slot) :
    (foldSlots atom node es).lookup slot =
      (Entries.get? es slot.keyword).map (foldSlot atom node slot) := by
  induction es with
  | nil => simp [foldSlots]
  | cons e rest ih =>
    obtain ⟨k, v⟩ := e
    by_cases hk : k = .str slot.keyword
    · subst hk
      simp [foldSlots, Slot.ofKey?_keyword, Entries.get?]
    · simp only [foldSlots, Entries.get?_cons, if_neg hk, ← ih]
      split
      · rfl
      · next other h =>
        have : (slot == other) = false := by
          simp only [beq_eq_false_iff_ne, ne_eq]
          rintro rfl
          exact hk (Slot.eq_str_of_ofKey? h)
        simp [List.lookup_cons, this]

theorem fold_atom {v : Value} (h : v.isMapping = false) : fold atom node v = atom v := by
  cases v with
  | scalar s => rfl
  | array kind items => rfl
  | mapping es => simp [isMapping] at h

/-- **A fold answers for a node from the folds of the schemas in its slots.** -/
theorem fold_mapping (es : Entries) :
    fold atom node (.mapping es) =
      node es fun slot => (Entries.content? es slot).map (Content.map (fold atom node)) := by
  rw [fold]
  congr 1
  funext slot
  rw [lookup_foldSlots, Entries.content?]
  cases Entries.get? es slot.keyword with
  | none => rfl
  | some v => simp [foldSlot_eq]

/-! ### The nodes of a schema -/

/-- The nodes at the places of schemas, in the order in which a walk maps them: the nodes below a
node before the node itself. -/
def nodes : Value → List Entries :=
  fold (fun _ => []) fun es held =>
    (Slot.all.flatMap fun slot => ((held slot).map fun c => c.members.flatten).getD []) ++ [es]

theorem nodes_atom {v : Value} (h : v.isMapping = false) : nodes v = [] := fold_atom _ _ h

theorem nodes_mapping (es : Entries) :
    nodes (.mapping es) = (Entries.subschemas es).flatMap nodes ++ [es] := by
  rw [nodes, fold_mapping, Entries.subschemas, List.flatMap_assoc]
  congr 2
  funext slot
  dsimp only
  cases Entries.content? es slot with
  | none => rfl
  | some c => simp [List.flatMap_def]

theorem mem_nodes_mapping {es node : Entries} :
    node ∈ nodes (.mapping es) ↔ (∃ c ∈ Entries.subschemas es, node ∈ nodes c) ∨ node = es := by
  simp [nodes_mapping]

theorem isMapping_of_mem_nodes {v : Value} {node : Entries} (h : node ∈ v.nodes) :
    v.isMapping = true := by
  cases hv : v.isMapping with
  | true => rfl
  | false => simp [nodes_atom hv] at h

end Value

end ApiSchema
