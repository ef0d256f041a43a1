/-
The draft-04 form of a schema means what the schema means.

`Interpretation` fixes everything that the two dialects agree about: what the
type names, references and atoms mean, and how the meaning of a node depends on
its type, on the schemas in its slots and on its other entries.  The dialects
then differ in one clause.  An OpenAPI schema with a truthy `nullable` admits
null besides the instances of its type; a draft-04 schema may list several types
and admits the instances of each.

The mapping works from the leaves up on nodes whose schemas it has mapped
already, while both meanings read a schema from the root down.  The induction is
over the places of schemas: below a node the two meanings agree already, and at
the node `foldNullable` turns the one type clause into the other and touches
nothing else that a meaning can see.
-/
import ApiSchema.Proofs.Schema.Meaning
import ApiSchema.Proofs.Schema.Walk
import ApiSchema.Schema.Draft4

namespace ApiSchema

/-! ### The two dialects -/

namespace Entries

/-- The node admits null besides the instances of its type. -/
def isNullable (es : Entries) : Bool := (get? es Keyword.nullable).any Value.isTruthy

/-- The entry belongs to the type clause or names the dialect. -/
def isTypeWord (e : Scalar × Value) : Bool :=
  e.1 = .str Keyword.type || e.1 = .str Keyword.nullable || e.1 = .str Keyword.dialect

/-- The entries that neither belong to the type clause nor name the dialect. -/
def withoutTypeWords (es : Entries) : Entries := es.filter fun e => !isTypeWord e

end Entries

/-- What the two dialects agree about, for the instances in `ι`. -/
structure Interpretation (ι : Type) where
  /-- The instance is null. -/
  isNull : ι → Prop
  /-- The instance is of the type of that name. -/
  hasType : String → ι → Prop
  /-- The type `null` has one instance. -/
  hasType_null : ∀ x, hasType "null" x ↔ isNull x
  /-- What a type means that is no name, if it means anything. -/
  oddType : Value → ι → Prop
  /-- What a value means that is not a mapping. -/
  atom : Value → ι → Prop
  /-- What a reference means. -/
  reference : String → ι → Prop
  /-- What a node means, by the truth of its type clause, the meanings of the schemas in its slots
  and its other entries. -/
  combine : ι → Prop → (Slot → Option (Content (ι → Prop))) → Entries → Prop

namespace Interpretation

variable {ι : Type} (I : Interpretation ι)

/-- The type clause of an OpenAPI schema.  Without a type every instance is admitted, and a truthy
`nullable` leaves nothing of a type that is no name. -/
def openApiType (nullable : Bool) : Option Value → ι → Prop
  | none, _ => True
  | some (.scalar (.str t)), x => I.hasType t x ∨ nullable = true ∧ I.isNull x
  | some v, x => nullable = true ∨ I.oddType v x

/-- The type clause of a draft-04 schema. -/
def draft4Type : Option Value → ι → Prop
  | none, _ => True
  | some (.scalar (.str t)), x => I.hasType t x
  | some (.array _ ts), x => ∃ t, .str t ∈ ts ∧ I.hasType t x
  | some v, x => I.oddType v x

/-- The meaning of OpenAPI schemas. -/
def openApi : Semantics ι where
  atom := I.atom
  reference := I.reference
  node held own x :=
    I.combine x (I.openApiType (Entries.isNullable own) (Entries.get? own Keyword.type) x) held
      (Entries.withoutTypeWords own)

/-- The meaning of draft-04 schemas. -/
def draft4 : Semantics ι where
  atom := I.atom
  reference := I.reference
  node held own x :=
    I.combine x (I.draft4Type (Entries.get? own Keyword.type) x) held
      (Entries.withoutTypeWords own)

end Interpretation

/-! ### What the mapping leaves of a node -/

namespace Entries

variable {es : Entries} {name : String} {v : Value}

/-- The entries that are read neither as schemas nor as a type clause. -/
def rest (es : Entries) : Entries := withoutTypeWords (own es)

theorem filter_set {p : Scalar × Value → Bool} (hp : ∀ w, p (.str name, w) = false) :
    (set es name v).filter p = es.filter p := by
  induction es with
  | nil => simp [set, hp]
  | cons e es ih =>
    obtain ⟨k, w⟩ := e
    by_cases hk : k = .str name
    · subst hk
      simp [set, hp]
    · simp [set, hk, List.filter_cons, ih]

theorem filter_erase {p : Scalar × Value → Bool} (hp : ∀ w, p (.str name, w) = false) :
    (erase es name).filter p = es.filter p := by
  induction es with
  | nil => rfl
  | cons e es ih =>
    obtain ⟨k, w⟩ := e
    by_cases hk : k = .str name
    · subst hk
      simpa [erase, hp] using ih
    · have hcons : erase ((k, w) :: es) name = (k, w) :: erase es name := by simp [erase, hk]
      rw [hcons, List.filter_cons, List.filter_cons, ih]

theorem rest_eq (es : Entries) :
    rest es = es.filter fun e => !isTypeWord e && !holdsSchemas e := by
  simp [rest, withoutTypeWords, own, List.filter_filter]

/-- A change under the keyword of the type clause changes nothing else. -/
theorem rest_set (hname : ∀ w, isTypeWord (.str name, w) = true) :
    rest (set es name v) = rest es := by
  rw [rest_eq, rest_eq]
  exact filter_set fun w => by simp [hname w]

theorem rest_erase (hname : ∀ w, isTypeWord (.str name, w) = true) :
    rest (erase es name) = rest es := by
  rw [rest_eq, rest_eq]
  exact filter_erase fun w => by simp [hname w]

/-- Folding `nullable` changes what stands under two keywords. -/
theorem get?_foldNullable_of_ne (htype : name ≠ Keyword.type)
    (hnullable : name ≠ Keyword.nullable) : get? (foldNullable es) name = get? es name := by
  rw [foldNullable]
  split
  · rfl
  · dsimp only
    split
    · rw [admitNull]
      split
      · rw [get?_set_of_ne htype, get?_erase_of_ne hnullable]
      · rw [get?_erase_of_ne htype, get?_erase_of_ne hnullable]
    · exact get?_erase_of_ne hnullable

theorem rest_foldNullable : rest (foldNullable es) = rest es := by
  rw [foldNullable]
  split
  · rfl
  · dsimp only
    split
    · rw [admitNull]
      split
      · rw [rest_set fun _ => rfl, rest_erase fun _ => rfl]
      · rw [rest_erase fun _ => rfl, rest_erase fun _ => rfl]
    · exact rest_erase fun _ => rfl

theorem ref?_foldNullable : ref? (foldNullable es) = ref? es := by
  rw [ref?, ref?, get?_foldNullable_of_ne (by decide) (by decide)]

theorem content?_foldNullable (slot : Slot) :
    content? (foldNullable es) slot = content? es slot := by
  rw [content?, content?, get?_foldNullable_of_ne (Slot.ne_keyword (by decide) slot).symm
    (Slot.ne_keyword (by decide) slot).symm]

theorem get?_withDialect_of_ne (hname : name ≠ Keyword.dialect) :
    get? (withDialect es) name = get? es name := by
  rw [withDialect, get?_cons, if_neg (by simpa using hname.symm), get?_erase_of_ne hname]

theorem ref?_withDialect : ref? (withDialect es) = ref? es := by
  rw [ref?, ref?, get?_withDialect_of_ne (by decide)]

theorem content?_withDialect (slot : Slot) : content? (withDialect es) slot = content? es slot := by
  rw [content?, content?, get?_withDialect_of_ne (Slot.ne_keyword (by decide) slot).symm]

/-- The type of a node after folding, if the node is no reference. -/
theorem get?_type_foldNullable (href : ref? es = none) :
    get? (foldNullable es) Keyword.type =
      if isNullable es then
        ((get? es Keyword.type).bind Value.text?).map fun t =>
          .array .list [.str t, .str "null"]
      else get? es Keyword.type := by
  have hne : Keyword.type ≠ Keyword.nullable := by decide
  rw [foldNullable, isNullable]
  cases hnull : get? es Keyword.nullable with
  | none => simp
  | some v =>
    have hread : get? (erase es Keyword.nullable) Keyword.type = get? es Keyword.type :=
      get?_erase_of_ne hne
    by_cases hv : v.isTruthy = true
    · simp only [hv, href, Option.isNone_none, Bool.and_self, if_true, Option.any_some, admitNull,
        hread]
      cases (get? es Keyword.type).bind Value.text? with
      | none => simp
      | some t => simp
    · simp [hv, hread]

end Entries

/-! ### The type clauses agree -/

namespace Interpretation

variable {ι : Type} (I : Interpretation ι) {es : Entries}

/-- A node that is accepted has no array under `type`. -/
theorem type_of_checkNode (h : Entries.checkNode es = .ok ()) {kind : ArrayKind} {ts : List Value} :
    Entries.get? es Keyword.type ≠ some (.array kind ts) := by
  intro htype
  simp [Entries.checkNode, htype] at h

theorem draft4Type_foldNullable (href : Entries.ref? es = none)
    (hcheck : Entries.checkNode es = .ok ()) (x : ι) :
    I.draft4Type (Entries.get? (Entries.foldNullable es) Keyword.type) x ↔
      I.openApiType (Entries.isNullable es) (Entries.get? es Keyword.type) x := by
  rw [Entries.get?_type_foldNullable href]
  have hno {kind ts} : Entries.get? es Keyword.type ≠ some (.array kind ts) :=
    type_of_checkNode hcheck
  cases htype : Entries.get? es Keyword.type with
  | none => cases Entries.isNullable es <;> simp [draft4Type, openApiType]
  | some v =>
    cases v with
    | array kind ts => exact absurd htype hno
    | mapping fs =>
      cases Entries.isNullable es <;> simp [draft4Type, openApiType, Value.text?]
    | scalar s =>
      cases s with
      | str t =>
        cases Entries.isNullable es with
        | false => simp [draft4Type, openApiType]
        | true => simp [draft4Type, openApiType, Value.text?, I.hasType_null]
      | _ => cases Entries.isNullable es <;> simp [draft4Type, openApiType, Value.text?]

/-! ### One node, and then a whole schema -/

/-- At a node the two meanings agree if they do for the schemas in its slots. -/
theorem valid_foldNullable {g : Value → Value}
    (hcheck : Entries.checkNode (Entries.mapSchemas g es) = .ok ())
    (hg : ∀ c ∈ Entries.subschemas es, c.isMapping = true → (g c).isMapping = true)
    (hvalid : ∀ c ∈ Entries.subschemas es, I.draft4.Valid (g c) = I.openApi.Valid c) :
    I.draft4.Valid (.mapping (Entries.foldNullable (Entries.mapSchemas g es))) =
      I.openApi.Valid (.mapping es) := by
  have href' : Entries.ref? (Entries.foldNullable (Entries.mapSchemas g es)) = Entries.ref? es :=
    Entries.ref?_foldNullable.trans Entries.ref?_mapSchemas
  cases href : Entries.ref? es with
  | some ref =>
    rw [I.draft4.valid_reference (href'.trans href), I.openApi.valid_reference href]
    rfl
  | none =>
    rw [I.draft4.valid_node (href'.trans href), I.openApi.valid_node href]
    funext x
    have hheld : (fun slot =>
        (Entries.content? (Entries.foldNullable (Entries.mapSchemas g es)) slot).map
          (Content.map I.draft4.Valid)) =
        fun slot => (Entries.content? es slot).map (Content.map I.openApi.Valid) := by
      funext slot
      rw [Entries.content?_foldNullable]
      exact Entries.map_content?_mapSchemas hg hvalid slot
    have hown : Entries.own (Entries.mapSchemas g es) = Entries.own es := Entries.own_mapSchemas hg
    have hrest : Entries.rest (Entries.foldNullable (Entries.mapSchemas g es)) =
        Entries.rest es := by
      rw [Entries.rest_foldNullable, Entries.rest, hown, Entries.rest]
    have hclause : I.draft4Type
        (Entries.get? (Entries.foldNullable (Entries.mapSchemas g es)) Keyword.type) x =
        I.openApiType (Entries.isNullable es) (Entries.get? es Keyword.type) x := by
      rw [I.draft4Type_foldNullable (Entries.ref?_mapSchemas.trans href) hcheck,
        Entries.isNullable, Entries.isNullable,
        Entries.get?_mapSchemas_of_ne (by decide),
        Entries.get?_mapSchemas_of_ne (by decide)]
    show I.combine x _ _ (Entries.rest _) = I.combine x _ _ (Entries.rest es)
    rw [hheld, hrest, Entries.isNullable, Entries.get?_own_of_ne (by decide),
      Entries.get?_own_of_ne (by decide), Entries.get?_own_of_ne (by decide),
      hclause, Entries.isNullable]

theorem toDraft4Node_eq_ok {w : Value} (h : Entries.toDraft4Node es = .ok w) :
    Entries.checkNode es = .ok () ∧ w = .mapping (Entries.foldNullable es) := by
  obtain ⟨⟨⟩, hcheck, hw⟩ := bind_eq_ok.mp h
  exact ⟨hcheck, (Except.ok.inj hw).symm⟩

/-- The walk turns a schema into one of the same meaning, and a mapping into a mapping. -/
theorem valid_walkM {v w : Value} (h : v.walkM Entries.toDraft4Node = .ok w) :
    I.draft4.Valid w = I.openApi.Valid v ∧ (v.isMapping = true → w.isMapping = true) := by
  induction v using Value.schemaRec generalizing w with
  | atom v hv =>
    rw [Value.walkM_atom _ hv] at h
    obtain rfl := Except.ok.inj h
    rw [I.draft4.valid_atom hv, I.openApi.valid_atom hv]
    exact ⟨rfl, id⟩
  | node es ih =>
    obtain ⟨g, hg, hnode⟩ := Value.walkM_mapping_eq_ok.mp h
    obtain ⟨hcheck, rfl⟩ := toDraft4Node_eq_ok hnode
    refine ⟨?_, fun _ => rfl⟩
    exact I.valid_foldNullable hcheck (fun c hc => (ih c hc (hg c hc)).2)
      fun c hc => (ih c hc (hg c hc)).1

/-- The identifier of the dialect has no part in what a node means. -/
theorem valid_withDialect (es : Entries) :
    I.draft4.Valid (.mapping (Entries.withDialect es)) = I.draft4.Valid (.mapping es) := by
  cases href : Entries.ref? es with
  | some ref =>
    rw [I.draft4.valid_reference (Entries.ref?_withDialect.trans href),
      I.draft4.valid_reference href]
  | none =>
    rw [I.draft4.valid_node (Entries.ref?_withDialect.trans href), I.draft4.valid_node href]
    have hheld : Entries.content? (Entries.withDialect es) = Entries.content? es :=
      funext Entries.content?_withDialect
    have hrest : Entries.rest (Entries.withDialect es) = Entries.rest es := by
      rw [Entries.rest_eq, Entries.withDialect, List.filter_cons, if_neg, ← Entries.rest_eq,
        Entries.rest_erase fun _ => rfl]
      simp [Entries.isTypeWord]
    funext x
    show I.combine x _ _ (Entries.rest _) = I.combine x _ _ (Entries.rest es)
    rw [hheld, hrest, Entries.get?_own_of_ne (by decide),
      Entries.get?_own_of_ne (by decide), Entries.get?_withDialect_of_ne (by decide)]

/-- What is accepted as a schema is a mapping, and its draft-04 form is the walked
node under the identifier of the dialect. -/
theorem toDraft4_eq_ok {s : Value} {m : Entries} (h : s.toDraft4 = .ok m) :
    ∃ node, s.walkM Entries.toDraft4Node = .ok (.mapping node) ∧ m = Entries.withDialect node := by
  cases s with
  | scalar s => simp [Value.toDraft4] at h
  | array kind vs => simp [Value.toDraft4] at h
  | mapping es =>
    obtain ⟨node, hnode, hrest⟩ := bind_eq_ok.mp h
    obtain ⟨⟨⟩, hcheck, hm⟩ := bind_eq_ok.mp hrest
    refine ⟨Entries.foldNullable node, ?_, (Except.ok.inj hm).symm⟩
    rw [Value.walkM_mapping, hnode]
    show Entries.toDraft4Node node = _
    rw [Entries.toDraft4Node, hcheck]
    rfl

/-- The two meanings are one, for the root too. -/
theorem draft4_eq_openApi {s : Value} {m : Entries} (h : s.toDraft4 = .ok m) :
    I.draft4.Valid (.mapping m) = I.openApi.Valid s := by
  obtain ⟨node, hwalk, rfl⟩ := toDraft4_eq_ok h
  rw [I.valid_withDialect, (I.valid_walkM hwalk).1]

/-- **The draft-04 form of a schema admits exactly the instances of the schema**,
whatever the two dialects agree to read into it. -/
theorem valid_toDraft4 {s : Value} {m : Entries} (h : s.toDraft4 = .ok m) (x : ι) :
    I.draft4.Valid (.mapping m) x ↔ I.openApi.Valid s x :=
  iff_of_eq (congrFun (I.draft4_eq_openApi h) x)

/-- A plain reading for document values: a node admits what its type and every
schema under `allOf` admit. -/
def plain (reference : String → Value → Prop) : Interpretation Value where
  isNull x := x = .null
  hasType t x := t = "null" ∧ x = .null ∨ t = "string" ∧ x.text?.isSome = true
  hasType_null x := by simp
  oddType _ _ := True
  atom v _ := v ≠ .bool false
  reference := reference
  combine x typeClause held _ :=
    typeClause ∧ ∀ c, held .allOf = some c → ∀ meaning ∈ c.members, meaning x

/-- A nullable member beside a reference that carries words of its own, in a node
with a truthy `nullable` and no type, above a node whose `nullable` is false. -/
theorem valid_toDraft4_nullable_allOf :
    (plain fun _ x => x = .null).draft4.Valid
        (.mapping [(.str "$schema", .str draft4Dialect),
          (.str "allOf", .array .tuple [
            .mapping [(.str "type", .array .list [.str "string", .str "null"])],
            .mapping [(.str "$ref", .str "#/a"), (.str "type", .str "integer")]]),
          (.str "items", .mapping [(.str "type", .str "integer")])]) .null ↔
      (plain fun _ x => x = .null).openApi.Valid
        (.mapping [(.str "allOf", .array .tuple [
            .mapping [(.str "type", .str "string"), (.str "nullable", .bool true)],
            .mapping [(.str "nullable", .bool true), (.str "$ref", .str "#/a"),
              (.str "type", .str "integer")]]),
          (.str "nullable", .scalar (.int 1)),
          (.str "items", .mapping [(.str "type", .str "integer"), (.str "nullable", .bool false)])])
        .null :=
  (plain fun _ x => x = .null).valid_toDraft4 (by rfl) .null

end Interpretation

end ApiSchema
