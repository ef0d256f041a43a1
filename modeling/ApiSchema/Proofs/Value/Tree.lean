/-
Values that do not contain themselves.

A value that contains itself is written out to some depth, and ends there in places of
values around it.  A tree has no such place.  Nothing that is done to schemas makes one:
what a reference names in a tree is a tree, and so is a schema whose references have been
replaced, and its draft-04 form.

It is enough to know the entries of the new node.  They are old ones, except under the
keywords of slots, where the old arrangement holds trees again.
-/
import ApiSchema.Proofs.Reference.Expansion
import ApiSchema.Proofs.Schema.Dialect

namespace ApiSchema

/-- The scalar is not the place of a value around it. -/
def Scalar.isOwn : Scalar → Bool
  | enclosing _ => false
  | _ => true

/-- Nothing in the value is the place of a value around it. -/
inductive Value.IsTree : Value → Prop
  | scalar {s : Scalar} (own : s.isOwn = true) : IsTree (.scalar s)
  | array (kind : ArrayKind) {items : List Value} (items_tree : ∀ v ∈ items, IsTree v) :
    IsTree (.array kind items)
  | mapping {es : Entries} (keys_own : ∀ e ∈ es, e.1.isOwn = true)
    (values_tree : ∀ e ∈ es, IsTree e.2) : IsTree (.mapping es)

namespace Value

variable {document v w : Value} {es : Entries} {g : Value → Value}

theorem isTree_mapping_iff :
    (mapping es).IsTree ↔ ∀ e ∈ es, e.1.isOwn = true ∧ e.2.IsTree := by
  constructor
  · rintro (_ | _ | ⟨hkeys, hvalues⟩) e he
    exact ⟨hkeys e he, hvalues e he⟩
  · intro h
    exact .mapping (fun e he => (h e he).1) fun e he => (h e he).2

theorem hereditary_isTree : Hereditary IsTree where
  entry _ h e he := (isTree_mapping_iff.mp h e he).2
  item _ _ h := by
    cases h with
    | array _ hitems => exact hitems

/-! ### Replacing schemas -/

theorem isTree_content {c : Content Value} (h : c.toValue.IsTree)
    (hg : ∀ v ∈ c.members, v.IsTree → (g v).IsTree) : (c.map g).toValue.IsTree := by
  cases c with
  | fields es =>
    have hes := isTree_mapping_iff.mp h
    refine isTree_mapping_iff.mpr (List.forall_mem_map.mpr fun e he => ?_)
    exact ⟨(hes e he).1, hg e.2 (List.mem_map_of_mem he) (hes e he).2⟩
  | one v => exact hg v List.mem_cons_self h
  | alternatives kind vs =>
    have hvs := hereditary_isTree.item kind vs h
    exact .array kind (List.forall_mem_map.mpr fun v hv => hg v hv (hvs v hv))

theorem isTree_mapSchemas (h : (mapping es).IsTree)
    (hg : ∀ c ∈ Entries.subschemas es, c.IsTree → (g c).IsTree) :
    (mapping (Entries.mapSchemas g es)).IsTree := by
  have hentries : List.Forall₂ (fun e e' : Scalar × Value =>
      e'.1 = e.1 ∧ (e.2.IsTree → e'.2.IsTree)) es (Entries.mapSchemas g es) := by
    refine Entries.forall₂_mapSchemas (fun _ => ⟨rfl, id⟩) (fun _ _ he => he.1) ?_
    intro slot c hc
    exact ⟨rfl, fun hv => isTree_content hv fun v hv' =>
      hg v (Entries.mem_subschemas.mpr ⟨slot, c, hc, hv'⟩)⟩
  refine isTree_mapping_iff.mpr fun e' he' => ?_
  obtain ⟨e, he, hkey, hvalue⟩ := exists_mem_of_forall₂ hentries he'
  obtain ⟨hown, htree⟩ := isTree_mapping_iff.mp h e he
  exact ⟨hkey ▸ hown, hvalue htree⟩

/-- **A schema with its references replaced is a tree**, if it and the document are. -/
theorem isTree_of_inlines {areas chain : List String} (h : Inlines document areas chain v w)
    (hdocument : document.IsTree) (hv : v.IsTree) : w.IsTree := by
  induction h with
  | atom _ => exact hv
  | node g _ _ ih =>
    exact isTree_mapSchemas hv fun c hc htree => ih c hc htree
  | reference _ _ _ _ _ target _ _ ih => exact ih (hereditary_isTree.resolve hdocument target)

/-! ### Draft-04 forms -/

theorem isTree_set {name : String} (h : (mapping es).IsTree) (hv : v.IsTree) :
    (mapping (Entries.set es name v)).IsTree := by
  induction es with
  | nil => exact isTree_mapping_iff.mpr (List.forall_mem_singleton.mpr ⟨rfl, hv⟩)
  | cons e es ih =>
    obtain ⟨k, w⟩ := e
    obtain ⟨he, hes⟩ := List.forall_mem_cons.mp (isTree_mapping_iff.mp h)
    refine isTree_mapping_iff.mpr ?_
    rw [Entries.set]
    split
    · exact List.forall_mem_cons.mpr ⟨⟨he.1, hv⟩, hes⟩
    · exact List.forall_mem_cons.mpr
        ⟨he, isTree_mapping_iff.mp (ih (isTree_mapping_iff.mpr hes))⟩

theorem isTree_erase {name : String} (h : (mapping es).IsTree) :
    (mapping (Entries.erase es name)).IsTree :=
  isTree_mapping_iff.mpr fun e he => isTree_mapping_iff.mp h e (List.mem_filter.mp he).1

theorem isTree_foldNullable (h : (mapping es).IsTree) :
    (mapping (Entries.foldNullable es)).IsTree := by
  have htypes (t : String) : (array .list [.str t, .str "null"]).IsTree :=
    .array .list (List.forall_mem_cons.mpr ⟨.scalar rfl,
      List.forall_mem_singleton.mpr (.scalar rfl)⟩)
  rw [Entries.foldNullable]
  split
  · exact h
  dsimp only
  split
  · rw [Entries.admitNull]
    split
    · exact isTree_set (isTree_erase h) (htypes _)
    · exact isTree_erase (isTree_erase h)
  · exact isTree_erase h

/-- **The draft-04 form of a tree is a tree.** -/
theorem isTree_toDraft4 (h : v.toDraft4 = .ok es) (hv : v.IsTree) : (mapping es).IsTree := by
  obtain ⟨node, hwalk, rfl⟩ := Interpretation.toDraft4_eq_ok h
  have hwalked {v w : Value} (hwalk : v.walkM Entries.toDraft4Node = .ok w) (hv : v.IsTree) :
      w.IsTree := by
    induction v using schemaRec generalizing w with
    | atom v hatom =>
      rw [walkM_atom _ hatom] at hwalk
      exact Except.ok.inj hwalk ▸ hv
    | node es ih =>
      obtain ⟨g, hg, hnode⟩ := walkM_mapping_eq_ok.mp hwalk
      obtain ⟨⟨⟩, -, hw⟩ := bind_eq_ok.mp hnode
      rw [← Except.ok.inj hw]
      exact isTree_foldNullable (isTree_mapSchemas hv fun c hc => ih c hc (hg c hc))
  refine isTree_mapping_iff.mpr (List.forall_mem_cons.mpr ⟨⟨rfl, .scalar rfl⟩, ?_⟩)
  exact isTree_mapping_iff.mp (isTree_erase (hwalked hwalk hv))

end Value

end ApiSchema
