/-
What the mapping to draft-04 leaves as it is.

The mapping changes a node in its type clause and nowhere else.  `Entries.Folded`
says so of one node: its entries stay where they are, apart from `nullable` and
from a type that is lost with it, and no value is another one but that of the type
and those that hold schemas.  What the schemas have become is said at their own
places, so the mapping as a whole is described place by place: the draft-04 form
has the places of the schema, and at each of them what the schema has there, folded.

A name inside of `properties` is no keyword.  That is part of the description,
because the names are the arrangement of a slot (`Content.outline`), which is
kept, while keywords are looked for in the entries of a node.
-/
import ApiSchema.Proofs.Schema.Calls
import ApiSchema.Proofs.Schema.Rejection
import ApiSchema.Proofs.Schema.Dialect

namespace ApiSchema

namespace Entries

variable {es es' : Entries} {g : Value → Value} {name : String}

/-! ### Shapes -/

/-- The shape of a node depends on its reference and on which slots hold mappings. -/
theorem shape_congr (href : ref? es' = ref? es)
    (hslots : ∀ slot : Slot, (get? es' slot.keyword).map Value.isMapping =
      (get? es slot.keyword).map Value.isMapping) : shape es' = shape es := by
  have hhas (slot : Slot) : has es' slot.keyword = has es slot.keyword := by
    rw [has, has, ← Option.isSome_map (f := Value.isMapping), hslots, Option.isSome_map]
  have hmapping (slot : Slot) : (get? es' slot.keyword).any Value.isMapping =
      (get? es slot.keyword).any Value.isMapping := by
    have hany := congrArg (Option.any id) (hslots slot)
    simpa [Option.any_map] using hany
  simp only [shape, href, hhas, hmapping]

/-- A slot holds a mapping before and after schemas are replaced by schemas. -/
theorem isMapping_get?_mapSchemas
    (hg : ∀ c ∈ subschemas es, c.isMapping = true → (g c).isMapping = true) (slot : Slot) :
    (get? (mapSchemas g es) slot.keyword).map Value.isMapping =
      (get? es slot.keyword).map Value.isMapping := by
  rw [get?_mapSchemas]
  cases hc : content? es slot with
  | none => rfl
  | some c =>
    obtain ⟨v, hv, hcv⟩ := Option.bind_eq_some_iff.mp hc
    rw [hv, ← Slot.toValue_of_content? hcv]
    cases c with
    | one m =>
      have hm : m.isMapping = true := Slot.isMapping_of_content? hcv
      have hgm := hg m (mem_subschemas.mpr ⟨slot, _, hc, by simp [Content.members]⟩) hm
      simp [Content.map, Content.toValue, hm, hgm]
    | _ => rfl

/-! ### One node -/

/-- The type of the node, if it is a text. -/
def typeText? (es : Entries) : Option String := (get? es Keyword.type).bind Value.text?

/-- The node is no reference and has a truthy `nullable`, so its type is changed. -/
def admitsNull (es : Entries) : Bool := isNullable es && (ref? es).isNone

/-- The entries that a node keeps: all but `nullable`, and but a type that is no text if the type is
changed. -/
def kept (es : Entries) : Entries :=
  let rest := erase es Keyword.nullable
  if admitsNull es && (typeText? es).isNone then erase rest Keyword.type else rest

/-- The second node is the first one with `nullable` folded into its type, and perhaps with other
schemas in its slots. -/
structure Folded (es es' : Entries) : Prop where
  keeps : List.Forall₂ (fun e e' => e'.1 = e.1 ∧
    (e.1 ≠ .str Keyword.type → holdsSchemas e = false → e'.2 = e.2)) (kept es) es'
  type : get? es' Keyword.type =
    if admitsNull es then (typeText? es).map fun t => .array .list [.str t, .str "null"]
    else get? es Keyword.type
  outline : ∀ slot, (content? es' slot).map Content.outline = (content? es slot).map Content.outline
  shape : shape es' = shape es

theorem erase_of_get?_eq_none (h : get? es name = none) : erase es name = es := by
  induction es with
  | nil => rfl
  | cons e es ih =>
    obtain ⟨k, v⟩ := e
    rw [get?_cons] at h
    by_cases hk : k = .str name
    · simp [hk] at h
    · rw [if_neg hk] at h
      have hcons : erase ((k, v) :: es) name = (k, v) :: erase es name := by simp [erase, hk]
      rw [hcons, ih h]

theorem foldNullable_eq (es : Entries) :
    foldNullable es =
      if admitsNull es then admitNull (erase es Keyword.nullable)
      else erase es Keyword.nullable := by
  rw [foldNullable, admitsNull, isNullable]
  cases h : get? es Keyword.nullable with
  | none => simp [erase_of_get?_eq_none h]
  | some v => rfl

theorem forall₂_erase {R : Scalar × Value → Scalar × Value → Prop}
    (hkey : ∀ e e', R e e' → e'.1 = e.1) (h : List.Forall₂ R es es') :
    List.Forall₂ R (erase es name) (erase es' name) :=
  List.rel_filter (fun e e' he => by simp [hkey e e' he]) h

/-- **Folding `nullable` changes the type clause of a node and nothing else.** -/
theorem folded_foldNullable
    (hg : ∀ c ∈ subschemas es, c.isMapping = true → (g c).isMapping = true) :
    Folded es (foldNullable (mapSchemas g es)) := by
  have hnull : isNullable (mapSchemas g es) = isNullable es := by
    rw [isNullable, isNullable, get?_mapSchemas_of_ne (by decide)]
  have hadmits : admitsNull (mapSchemas g es) = admitsNull es := by
    rw [admitsNull, admitsNull, hnull, ref?_mapSchemas]
  have htype : get? (mapSchemas g es) Keyword.type = get? es Keyword.type :=
    get?_mapSchemas_of_ne (by decide)
  have herased : get? (erase (mapSchemas g es) Keyword.nullable) Keyword.type =
      get? es Keyword.type := (get?_erase_of_ne (by decide)).trans htype
  refine ⟨?_, ?_, fun slot => ?_, ?_⟩
  · have hkept : List.Forall₂ (fun e e' => e'.1 = e.1 ∧
          (e.1 ≠ .str Keyword.type → holdsSchemas e = false → e'.2 = e.2))
        (erase es Keyword.nullable) (erase (mapSchemas g es) Keyword.nullable) :=
      forall₂_erase (fun _ _ h => h.1)
        ((replaces_mapSchemas g es).keeps.imp fun _ _ h => ⟨h.1, fun _ => h.2⟩)
    rw [foldNullable_eq, hadmits, kept]
    cases admitsNull es with
    | false => exact hkept
    | true =>
      simp only [if_true, Bool.true_and, admitNull, herased]
      cases ht : typeText? es with
      | none =>
        rw [typeText?] at ht
        rw [ht]
        exact forall₂_erase (fun _ _ h => h.1) hkept
      | some t =>
        have hold : get? (erase es Keyword.nullable) Keyword.type = get? es Keyword.type :=
          get?_erase_of_ne (by decide)
        obtain ⟨v, hv, hvt⟩ := Option.bind_eq_some_iff.mp ht
        rw [hv, Option.bind_some, hvt]
        exact forall₂_set (fun _ _ h => h.1) (hold.trans hv) ⟨rfl, fun h => absurd rfl h⟩ hkept
  · rw [foldNullable_eq, hadmits]
    cases admitsNull es with
    | false => exact herased
    | true =>
      simp only [if_true, admitNull, herased]
      rw [typeText?]
      cases (get? es Keyword.type).bind Value.text? <;> simp
  · rw [content?_foldNullable, content?_mapSchemas hg]
    cases content? es slot with
    | none => rfl
    | some c => simp [Content.outline, Content.map_map]
  · refine shape_congr (ref?_foldNullable.trans ref?_mapSchemas) fun slot => ?_
    rw [get?_foldNullable_of_ne (Slot.ne_keyword (by decide) slot).symm
      (Slot.ne_keyword (by decide) slot).symm, isMapping_get?_mapSchemas hg]

/-! ### Reading a folded node -/

theorem get?_of_forall₂ {R : Scalar × Value → Scalar × Value → Prop}
    (hR : ∀ e e', R e e' → e'.1 = e.1 ∧ (e.1 = .str name → e'.2 = e.2))
    (h : List.Forall₂ R es es') : get? es' name = get? es name := by
  induction h with
  | nil => rfl
  | @cons e e' rest rest' he _ ih =>
    obtain ⟨k, v⟩ := e
    obtain ⟨k', v'⟩ := e'
    obtain ⟨rfl, hv⟩ := hR _ _ he
    rw [get?_cons, get?_cons, ih]
    split
    · next hk => exact congrArg some (hv hk)
    · rfl

/-- What stands outside of the type clause and of the slots is read as before. -/
theorem Folded.get?_of_ne (h : Folded es es') (hslot : Slot.ofKey? (.str name) = none)
    (htype : name ≠ Keyword.type) (hnullable : name ≠ Keyword.nullable) :
    get? es' name = get? es name := by
  have hkept : get? (kept es) name = get? es name := by
    rw [kept]
    split
    · rw [get?_erase_of_ne htype, get?_erase_of_ne hnullable]
    · exact get?_erase_of_ne hnullable
  rw [← hkept]
  refine get?_of_forall₂ (fun e e' he => ⟨he.1, fun hname => he.2 ?_ ?_⟩) h.keeps
  · simpa [hname] using htype
  · rw [holdsSchemas, hname, hslot]
    rfl

theorem Folded.get?_nullable (h : Folded es es') : get? es' Keyword.nullable = none := by
  have hkept : get? (kept es) Keyword.nullable = none := by
    rw [kept]
    split
    · rw [get?_erase_of_ne (by decide), get?_erase_self]
    · exact get?_erase_self
  rw [← hkept]
  refine get?_of_forall₂ (fun e e' he => ⟨he.1, fun hname => he.2 ?_ ?_⟩) h.keeps
  · simp [hname, Keyword.type, Keyword.nullable]
  · rw [holdsSchemas, hname]
    rfl

theorem Folded.ref?_eq (h : Folded es es') : ref? es' = ref? es := by
  rw [ref?, ref?, h.get?_of_ne (by decide) (by decide) (by decide)]

/-! ### The dialect -/

theorem erase_comm (es : Entries) (a b : String) :
    erase (erase es a) b = erase (erase es b) a := by
  simp only [erase, List.filter_filter, Bool.and_comm]

theorem shape_withDialect : shape (withDialect es) = shape es :=
  shape_congr ref?_withDialect fun slot => by
    rw [get?_withDialect_of_ne (Slot.ne_keyword (by decide) slot).symm]

/-- The name of the dialect is apart from the type clause, so leaving it out on both sides changes
nothing. -/
theorem Folded.erase_dialect (h : Folded es es') :
    Folded (erase es Keyword.dialect) (erase es' Keyword.dialect) := by
  have hget {fs : Entries} {name : String} (hname : name ≠ Keyword.dialect) :
      get? (erase fs Keyword.dialect) name = get? fs name := get?_erase_of_ne hname
  have hslot {fs : Entries} (slot : Slot) :
      get? (erase fs Keyword.dialect) slot.keyword = get? fs slot.keyword :=
    hget (Slot.ne_keyword (by decide) slot).symm
  have hshape {fs : Entries} : Entries.shape (erase fs Keyword.dialect) = Entries.shape fs :=
    shape_congr (by rw [ref?, ref?, hget (by decide)]) fun slot => by rw [hslot]
  have hadmits : admitsNull (erase es Keyword.dialect) = admitsNull es := by
    rw [admitsNull, admitsNull, isNullable, isNullable, ref?, ref?, hget (by decide),
      hget (by decide)]
  have htext : typeText? (erase es Keyword.dialect) = typeText? es := by
    rw [typeText?, typeText?, hget (by decide)]
  refine ⟨?_, ?_, fun slot => ?_, ?_⟩
  · have hkept : kept (erase es Keyword.dialect) = erase (kept es) Keyword.dialect := by
      simp only [kept, hadmits, htext, erase_comm es Keyword.dialect]
      split
      · exact erase_comm _ _ _
      · rfl
    rw [hkept]
    exact forall₂_erase (fun _ _ h => h.1) h.keeps
  · rw [hget (by decide), hget (by decide), hadmits, htext, h.type]
  · rw [content?, content?, hslot, hslot]
    exact h.outline slot
  · rw [hshape, hshape, h.shape]

end Entries

/-! ### Place by place -/

/-- The second value is the first one folded: a node in its type clause, and any other value not at
all. -/
inductive FoldsTo : Value → Value → Prop
  /-- A value that is not a mapping stays. -/
  | atom {v : Value} (h : v.isMapping = false) : FoldsTo v v
  /-- A node keeps all but its type clause. -/
  | node {es es' : Entries} (h : Entries.Folded es es') : FoldsTo (.mapping es) (.mapping es')

open Entries (subschemas mapSchemas)

variable {es : Entries} {v w s : Value} {m : Entries} {g : Value → Value}

/-- A walk gives a node with folded entries and with its own answers in the slots. -/
theorem walkM_toDraft4Node_mapping
    (h : (Value.mapping es).walkM Entries.toDraft4Node = .ok w) :
    ∃ g : Value → Value, (∀ c ∈ subschemas es, c.walkM Entries.toDraft4Node = .ok (g c)) ∧
      (∀ c ∈ subschemas es, c.isMapping = true → (g c).isMapping = true) ∧
      w = .mapping (Entries.foldNullable (mapSchemas g es)) := by
  obtain ⟨g, hg, hnode⟩ := Value.walkM_mapping_eq_ok.mp h
  obtain ⟨-, rfl⟩ := Interpretation.toDraft4Node_eq_ok hnode
  have hmapping (c : Value) (hc : c ∈ subschemas es) :=
    Value.isMapping_of_walkM (fun _ _ => Entries.isMapping_of_toDraft4Node) (hg c hc)
  exact ⟨g, hg, hmapping, rfl⟩

theorem Entries.membersOf_foldNullable
    (hg : ∀ c ∈ subschemas es, c.isMapping = true → (g c).isMapping = true) (slot : Slot) :
    membersOf (foldNullable (mapSchemas g es)) slot = (membersOf es slot).map g := by
  rw [membersOf, membersOf, content?_foldNullable, content?_mapSchemas hg]
  cases content? es slot with
  | none => rfl
  | some c => exact Content.members_map g c

/-- **The answer of the walk has the places of the schema, and what stands there is folded.** -/
theorem foldsTo_of_walkM (h : v.walkM Entries.toDraft4Node = .ok w) (place : Place) :
    Option.Rel FoldsTo (v.schemaAt? place) (w.schemaAt? place) := by
  induction place generalizing v w with
  | nil =>
    refine .some ?_
    cases v with
    | mapping es =>
      obtain ⟨g, -, hmapping, rfl⟩ := walkM_toDraft4Node_mapping h
      exact .node (Entries.folded_foldNullable hmapping)
    | _ =>
      obtain rfl := Except.ok.inj h
      exact .atom rfl
  | cons step place ih =>
    obtain ⟨slot, i⟩ := step
    cases v with
    | mapping es =>
      obtain ⟨g, hg, hmapping, rfl⟩ := walkM_toDraft4Node_mapping h
      rw [Value.schemaAt?_cons, Value.schemaAt?_cons, Entries.membersOf_foldNullable hmapping,
        List.getElem?_map]
      cases hi : (Entries.membersOf es slot)[i]? with
      | none => exact .none
      | some c => exact ih (hg c (Entries.mem_subschemas_of_membersOf (List.mem_of_getElem? hi)))
    | _ =>
      obtain rfl := Except.ok.inj h
      exact .none

/-- Below the root of a schema nothing is said about its dialect. -/
theorem schemaAt?_withDialect (es : Entries) {place : Place} (hplace : place ≠ []) :
    (Value.mapping (Entries.withDialect es)).schemaAt? place =
      (Value.mapping es).schemaAt? place := by
  obtain ⟨⟨slot, i⟩, place, rfl⟩ := List.exists_cons_of_ne_nil hplace
  rw [Value.schemaAt?_cons, Value.schemaAt?_cons, Entries.membersOf, Entries.membersOf,
    Entries.content?_withDialect]

/-- **The mapping to draft-04 changes nothing but how null is admitted.**  The draft-04 form has a
schema at every place where the schema has one, and no other.  A node has its shape, its entries in
their order and their values, apart from `nullable`, from the type that goes with it, and from the
schemas in its slots, which are in the same arrangement and under the same names.  The root is
headed by the identifier of the dialect, and an identifier elsewhere stays what it is. -/
theorem toDraft4_folds (h : s.toDraft4 = .ok m) :
    (∃ es rest, s = .mapping es ∧ m = (.str Keyword.dialect, .str draft4Dialect) :: rest ∧
      Entries.Folded (Entries.erase es Keyword.dialect) rest ∧ Entries.shape m = Entries.shape es) ∧
    ∀ place, place ≠ [] →
      Option.Rel FoldsTo (s.schemaAt? place) ((Value.mapping m).schemaAt? place) := by
  obtain ⟨node, hwalk, rfl⟩ := Interpretation.toDraft4_eq_ok h
  constructor
  · cases s with
    | mapping es =>
      cases foldsTo_of_walkM hwalk [] with
      | some hroot =>
        cases hroot with
        | atom hes => simp [Value.isMapping] at hes
        | node hfolded =>
          refine ⟨es, _, rfl, rfl, hfolded.erase_dialect, ?_⟩
          rw [Entries.shape_withDialect, hfolded.shape]
    | _ => simp [Value.toDraft4] at h
  · intro place hplace
    rw [schemaAt?_withDialect node hplace]
    exact foldsTo_of_walkM hwalk place

/-- A schema in which the words of the type clause are keywords, names of properties, keywords of a
reference, and keys of a value that is no schema. -/
def keywordNames : Value :=
  .mapping [
    (.str "nullable", .bool true),
    (.str "type", .str "object"),
    (.str "$schema", .str "other"),
    (.str "properties", .mapping [
      (.str "nullable", .mapping [(.str "$ref", .str "#/a"), (.str "nullable", .bool true)]),
      (.str "type", .mapping [(.str "nullable", .bool true), (.str "type", .bool false)]),
      (.str "$schema", .mapping [(.str "$schema", .str "here"), (.str "type", .str "string")])]),
    (.str "not", .mapping [(.str "nullable", .bool true)])]

/-- Each of the words is treated as what it is at its place. -/
theorem toDraft4_folds_keywordNames :
    ∃ m, keywordNames.toDraft4 = .ok m ∧ Entries.shape m = .object ∧
      Option.Rel FoldsTo (keywordNames.schemaAt? [(.properties, 0)])
        (some (.mapping [(.str "$ref", .str "#/a")])) ∧
      Option.Rel FoldsTo (keywordNames.schemaAt? [(.properties, 1)]) (some (.mapping [])) ∧
      Option.Rel FoldsTo (keywordNames.schemaAt? [(.properties, 2)])
        (keywordNames.schemaAt? [(.properties, 2)]) := by
  have h : keywordNames.toDraft4 = .ok [
      (.str "$schema", .str draft4Dialect),
      (.str "type", .array .list [.str "object", .str "null"]),
      (.str "properties", .mapping [
        (.str "nullable", .mapping [(.str "$ref", .str "#/a")]),
        (.str "type", .mapping []),
        (.str "$schema", .mapping [(.str "$schema", .str "here"), (.str "type", .str "string")])]),
      (.str "not", .mapping [(.str "nullable", .bool true)])] := rfl
  obtain ⟨⟨es, rest, hes, -, -, hshape⟩, hplaces⟩ := toDraft4_folds h
  refine ⟨_, h, ?_, hplaces [(.properties, 0)] (by simp), hplaces [(.properties, 1)] (by simp),
    hplaces [(.properties, 2)] (by simp)⟩
  rw [hshape, ← Value.mapping.inj hes]
  rfl

end ApiSchema
