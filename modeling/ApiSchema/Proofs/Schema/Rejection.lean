/-
Which schemas have no draft-04 form, and why.

The mapping checks a node and rewrites it in one pass from the leaves up, and the
rewriting puts arrays under `type`, which is what the check refuses.  They are
never mistaken for arrays of the document: when a node is checked its schemas have
been rewritten already, but it has not, and a schema under `items` is still a
mapping after it.  So a check of a rewritten node is a check of the node of the
input, and `error?_walkM` turns the pass into a search for the first refused node
in the order of `Value.nodes`.

A rejection quotes the types that it refuses, and an integer of too many digits
cannot be written.  Then the mapping ends with the fault and not with the
rejection.
-/
import ApiSchema.Conversion
import ApiSchema.Proofs.Schema.Walk

namespace ApiSchema

open Entries (subschemas mapSchemas)

namespace Entries

variable {es : Entries} {g : Value → Value} {cause : Rejection}

/-! ### Refused nodes -/

/-- The node has an array under `type`, or else one under `items`. -/
inductive Refused (es : Entries) : Rejection → Prop
  /-- The types of the array are part of the rejection. -/
  | typeArray {kind : ArrayKind} {types : List Value}
      (types_eq : get? es Keyword.type = some (.array kind types)) : Refused es (.typeArray types)
  /-- An array under `items` counts if there is none under `type`. -/
  | itemsArray {kind : ArrayKind} {schemas : List Value}
      (single : ∀ kind types, get? es Keyword.type ≠ some (.array kind types))
      (items_eq : get? es Slot.items.keyword = some (.array kind schemas)) : Refused es .itemsArray

/-- The node has an array where the mapping accepts none. -/
def HasArray (es : Entries) : Prop :=
  (∃ kind types, get? es Keyword.type = some (.array kind types)) ∨
    ∃ kind schemas, get? es Slot.items.keyword = some (.array kind schemas)

theorem hasArray_iff : HasArray es ↔ ∃ cause, Refused es cause := by
  constructor
  · intro h
    by_cases htype : ∃ kind types, get? es Keyword.type = some (.array kind types)
    · obtain ⟨kind, types, htypes⟩ := htype
      exact ⟨_, .typeArray htypes⟩
    · obtain ⟨kind, schemas, hitems⟩ := h.resolve_left htype
      exact ⟨_, .itemsArray (fun k t ht => htype ⟨k, t, ht⟩) hitems⟩
  · rintro ⟨_, htypes | ⟨-, hitems⟩⟩
    · exact .inl ⟨_, _, htypes⟩
    · exact .inr ⟨_, _, hitems⟩

theorem checkNode_eq_error_iff : checkNode es = .error cause ↔ Refused es cause := by
  rw [checkNode]
  constructor
  · intro h
    split at h
    · next htypes =>
      obtain rfl := Except.error.inj h
      exact .typeArray htypes
    · next hitems hno =>
      obtain rfl := Except.error.inj h
      exact .itemsArray hno hitems
    · simp at h
  · rintro (htypes | ⟨hno, hitems⟩)
    · simp [htypes]
    · split
      · next htypes => exact absurd htypes (hno _ _)
      · rfl
      · next hitems' => exact absurd hitems (hitems' _ _)

/-! ### Checking a node whose schemas are rewritten -/

/-- An array under `items` is there before and after schemas are replaced by schemas. -/
theorem get?_items_mapSchemas
    (hg : ∀ c ∈ subschemas es, c.isMapping = true → (g c).isMapping = true)
    {kind : ArrayKind} {vs : List Value} :
    get? (mapSchemas g es) Slot.items.keyword = some (.array kind vs) ↔
      get? es Slot.items.keyword = some (.array kind vs) := by
  rw [get?_mapSchemas]
  cases hv : get? es Slot.items.keyword with
  | none => simp [content?, hv]
  | some v =>
    cases v with
    | scalar s => simp [content?, hv, Slot.content?]
    | array kind' vs' => simp [content?, hv, Slot.content?]
    | mapping fs =>
      have hcontent : content? es .items = some (.one (.mapping fs)) := by
        simp [content?, hv, Slot.content?]
      have hmem : Value.mapping fs ∈ subschemas es :=
        mem_subschemas.mpr ⟨.items, _, hcontent, by simp [Content.members]⟩
      have hmapping := hg _ hmem rfl
      rw [hcontent]
      cases hw : g (.mapping fs) with
      | mapping fs' => simp [Content.map, Content.toValue, hw]
      | _ => simp [hw, Value.isMapping] at hmapping

theorem refused_mapSchemas
    (hg : ∀ c ∈ subschemas es, c.isMapping = true → (g c).isMapping = true) :
    Refused (mapSchemas g es) cause ↔ Refused es cause := by
  have htype : get? (mapSchemas g es) Keyword.type = get? es Keyword.type :=
    get?_mapSchemas_of_ne (by decide)
  constructor
  · rintro (htypes | ⟨hno, hitems⟩)
    · exact .typeArray (htype.symm.trans htypes)
    · exact .itemsArray (htype ▸ hno) ((get?_items_mapSchemas hg).mp hitems)
  · rintro (htypes | ⟨hno, hitems⟩)
    · exact .typeArray (htype.trans htypes)
    · exact .itemsArray (htype.symm ▸ hno) ((get?_items_mapSchemas hg).mpr hitems)

theorem isMapping_of_toDraft4Node {w : Value} (h : toDraft4Node es = .ok w) :
    w.isMapping = true := by
  obtain ⟨-, -, hw⟩ := bind_eq_ok.mp h
  rw [← Except.ok.inj hw]
  rfl

/-- A node is refused for what it is in the input, whatever its schemas have become. -/
theorem error?_toDraft4Node_mapSchemas
    (hg : ∀ c ∈ subschemas es, c.isMapping = true → (g c).isMapping = true) :
    error? (toDraft4Node (mapSchemas g es)) = error? (checkNode es) := by
  have hcheck : error? (checkNode (mapSchemas g es)) = error? (checkNode es) := by
    ext cause
    rw [error?_eq_some_iff, error?_eq_some_iff, checkNode_eq_error_iff, checkNode_eq_error_iff,
      refused_mapSchemas hg]
  rw [← hcheck, toDraft4Node]
  cases checkNode (mapSchemas g es) <;> rfl

end Entries

/-! ### The first refused node -/

/-- Some node of the schema is refused for this cause, and none of those that a walk maps before
it is refused. -/
def FirstRefused (s : Value) (cause : Rejection) : Prop :=
  ∃ before node after, s.nodes = before ++ node :: after ∧
    (∀ earlier ∈ before, ¬ Entries.HasArray earlier) ∧ Entries.Refused node cause

variable {s : Value} {cause : Rejection}

theorem error?_toDraft4 (es : Entries) :
    error? (Value.mapping es).toDraft4 =
      (Value.mapping es).nodes.findSome? fun node => error? (Entries.checkNode node) := by
  have hwalk : error? ((Value.mapping es).walkM Entries.toDraft4Node) =
      (Value.mapping es).nodes.findSome? fun node => error? (Entries.checkNode node) :=
    Value.error?_walkM (fun _ _ => Entries.isMapping_of_toDraft4Node)
      (fun _ _ => Entries.error?_toDraft4Node_mapSchemas) _
  rw [← hwalk, Value.walkM_mapping, Value.toDraft4]
  cases Value.walkSubschemas Entries.toDraft4Node es with
  | error e => rfl
  | ok node =>
    show error? (Entries.checkNode node >>= _) = error? (Entries.checkNode node >>= _)
    cases Entries.checkNode node <;> rfl

theorem error?_checkNode_isSome_iff {node : Entries} :
    (error? (Entries.checkNode node)).isSome = true ↔ Entries.HasArray node := by
  rw [Entries.hasArray_iff, Option.isSome_iff_exists]
  simp only [error?_eq_some_iff, Entries.checkNode_eq_error_iff]

theorem findSome?_checkNode_eq_some_iff :
    (s.nodes.findSome? fun node => error? (Entries.checkNode node)) = some cause ↔
      FirstRefused s cause := by
  have haccepted (node : Entries) :
      error? (Entries.checkNode node) = none ↔ ¬ Entries.HasArray node := by
    rw [← error?_checkNode_isSome_iff, Option.not_isSome_iff_eq_none]
  rw [List.findSome?_eq_some_iff, FirstRefused]
  simp only [error?_eq_some_iff, Entries.checkNode_eq_error_iff, haccepted]
  constructor
  · rintro ⟨before, node, after, hnodes, hnode, hbefore⟩
    exact ⟨before, node, after, hnodes, hbefore, hnode⟩
  · rintro ⟨before, node, after, hnodes, hbefore, hnode⟩
    exact ⟨before, node, after, hnodes, hnode, hbefore⟩

/-- **A mapping is rejected for the first node that is refused.** -/
theorem toDraft4_eq_error_iff (hs : s.isMapping = true) :
    s.toDraft4 = .error cause ↔ FirstRefused s cause := by
  cases s with
  | mapping es => rw [← error?_eq_some_iff, error?_toDraft4, findSome?_checkNode_eq_some_iff]
  | _ => simp [Value.isMapping] at hs

theorem toDraft4_of_not_isMapping (hs : s.isMapping = false) :
    s.toDraft4 = .error .notASchema := by
  cases s with
  | mapping es => simp [Value.isMapping] at hs
  | _ => rfl

/-- If some node is refused, there is a first one. -/
theorem exists_firstRefused_iff :
    (∃ cause, FirstRefused s cause) ↔ ∃ node ∈ s.nodes, Entries.HasArray node := by
  simp only [← findSome?_checkNode_eq_some_iff, ← Option.isSome_iff_exists,
    List.findSome?_isSome_iff, error?_checkNode_isSome_iff]

theorem FirstRefused.ne_notASchema (h : FirstRefused s cause) : cause ≠ .notASchema := by
  obtain ⟨_, _, _, -, -, hnode⟩ := h
  cases hnode <;> simp

/-! ### What the mapping ends with -/

namespace Conversion

/-- What a conversion ends with that rejects the schema of that name: the rejection, or the fault of
writing it if it has an integer of too many digits. -/
def raised (name : String) (cause : Rejection) : Failure ConversionError :=
  if cause.isWritable then .error (.rejected name cause) else .fault .tooManyDigits

theorem result_mapLogged (name : String) (s : Value) :
    (mapLogged name s).result = s.toDraft4.mapError (raised name) := by
  rw [mapLogged]
  cases s.isMapping <;> rfl

theorem result_mapLogged_of_error {name : String} (h : s.toDraft4 = .error cause) :
    (mapLogged name s).result = .error (raised name cause) := by
  rw [result_mapLogged, h, mapError_error]

/-- **The mapping rejects a value that is no schema and a schema with an array
under `type` or `items` of some node, and nothing else.**  The rejection is that of
the first refused node of the input, unless it has an integer that cannot be
written. -/
theorem mapLogged_rejects (name : String) (s : Value) :
    (s.isMapping = false ↔
      (mapLogged name s).result = .error (.error (.rejected name .notASchema))) ∧
    (s.isMapping = true →
      ((∃ failure, (mapLogged name s).result = .error failure) ↔
        ∃ node ∈ s.nodes, Entries.HasArray node) ∧
      ∀ cause, FirstRefused s cause →
        (cause.isWritable = true →
          (mapLogged name s).result = .error (.error (.rejected name cause))) ∧
        (cause.isWritable = false →
          (mapLogged name s).result = .error (.fault .tooManyDigits))) := by
  refine ⟨⟨fun hs => result_mapLogged_of_error (toDraft4_of_not_isMapping hs), fun hroot => ?_⟩,
    fun hs => ⟨⟨?_, ?_⟩, fun cause hfirst => ?_⟩⟩
  · by_contra hs
    rw [Bool.not_eq_false] at hs
    rw [result_mapLogged] at hroot
    obtain ⟨cause, hcause, hraised⟩ := mapError_eq_error.mp hroot
    have hne := ((toDraft4_eq_error_iff hs).mp hcause).ne_notASchema
    rw [raised] at hraised
    split at hraised
    · simp [hne] at hraised
    · simp at hraised
  · rintro ⟨failure, hfailure⟩
    rw [result_mapLogged] at hfailure
    obtain ⟨cause, hcause, -⟩ := mapError_eq_error.mp hfailure
    exact exists_firstRefused_iff.mp ⟨cause, (toDraft4_eq_error_iff hs).mp hcause⟩
  · intro harray
    obtain ⟨cause, hfirst⟩ := exists_firstRefused_iff.mpr harray
    exact ⟨_, result_mapLogged_of_error ((toDraft4_eq_error_iff hs).mpr hfirst)⟩
  · rw [result_mapLogged_of_error ((toDraft4_eq_error_iff hs).mpr hfirst), raised]
    constructor
    · intro hw
      rw [if_pos hw]
    · intro hw
      simp [hw]

namespace Pet

/-- A schema whose root lists its types, with a tuple of items below one of its properties. -/
def schema : Value :=
  .mapping [
    (.str "type", .array .list [.str "object", .str "null"]),
    (.str "items", .mapping [(.str "type", .str "string"), (.str "nullable", .bool true)]),
    (.str "properties", .mapping [
      (.str "tags", .mapping [
        (.str "enum", .array .list [.array .list []]), (.str "items", .array .tuple [])])])]

end Pet

/-- The items of the property come before the types of the root.  The array that null makes of a
type and the one under `enum` are no reason. -/
theorem mapLogged_rejects_nested :
    (mapLogged "Pet" Pet.schema).result = .error (.error (.rejected "Pet" .itemsArray)) := by
  have hfirst : FirstRefused Pet.schema .itemsArray := by
    refine ⟨[], _, _, rfl, by simp, .itemsArray ?_ rfl⟩
    intro kind types
    simp [Entries.get?, Keyword.type]
  exact (((mapLogged_rejects "Pet" Pet.schema).2 rfl).2 _ hfirst).1 rfl

/-- An array of types with an integer of 4301 digits. -/
def longTypes : List Value := [.scalar (.int (.ofNat (Nat.pow 10 4300)))]

/-- The schema is refused for the array, but the mapping ends in a fault. -/
theorem mapLogged_longType :
    FirstRefused (.mapping [(.str "type", .array .list longTypes)]) (.typeArray longTypes) ∧
      (mapLogged "S" (.mapping [(.str "type", .array .list longTypes)])).result =
        .error (.fault .tooManyDigits) := by
  have hfirst : FirstRefused (.mapping [(.str "type", .array .list longTypes)])
      (.typeArray longTypes) :=
    ⟨[], _, [], rfl, by simp, .typeArray rfl⟩
  have hlong : Rejection.isWritable (.typeArray longTypes) = false := by decide +kernel
  refine ⟨hfirst, ?_⟩
  rw [result_mapLogged_of_error ((toDraft4_eq_error_iff rfl).mpr hfirst), raised, hlong]
  rfl

end Conversion

end ApiSchema
