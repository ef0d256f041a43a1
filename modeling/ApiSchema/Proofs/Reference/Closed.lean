/-
What is inlined holds no reference.

A run replaces every reference that it comes to, but what it puts in its place is
not walked again, and it need not be a schema: a target may be a text, or an array
that ends up where a single schema is expected.  `Inlines` is a derivation of the
result as well as of the run, so the induction on it shows what stands at the places
of the result.  A node that is kept has only slots with new schemas in them, or with
what is none, and a node that is replaced is gone together with its slots.

A schema without references is left alone by any further run.  The mapping to
draft-04 keeps the places and puts no reference anywhere, so a converted schema is
closed if what is mapped is.
-/
import ApiSchema.Proofs.Conversion.Failure
import ApiSchema.Proofs.Reference.Meaning
import ApiSchema.Proofs.Schema.Nullability
import ApiSchema.Proofs.Schema.PostOrder

namespace ApiSchema

variable {document v w s : Value} {areas chain : List String} {es node m : Entries}
  {place : Place}

/-- At no place of a schema there is a reference. -/
def Value.Closed (v : Value) : Prop :=
  ∀ place es, v.schemaAt? place = some (.mapping es) → Entries.ref? es = none

theorem Value.closed_iff_nodes : v.Closed ↔ ∀ es ∈ v.nodes, Entries.ref? es = none := by
  simp only [Value.Closed, Value.mem_nodes_iff]
  constructor
  · rintro h es ⟨place, hplace⟩
    exact h place es hplace
  · intro h place es hplace
    exact h es ⟨place, hplace⟩

/-! ### The result of a run -/

/-- The nodes of a node with other schemas are the node and those of the new schemas. -/
theorem Value.exists_of_mem_nodes_mapSchemas {g : Value → Value}
    (h : node ∈ (Value.mapping (Entries.mapSchemas g es)).nodes) :
    (∃ c ∈ Entries.subschemas es, node ∈ (g c).nodes) ∨ node = Entries.mapSchemas g es := by
  rcases Value.mem_nodes_mapping.mp h with ⟨d, hd, hnode⟩ | hself
  · obtain ⟨c, hc, rfl⟩ := Entries.exists_of_mem_subschemas_mapSchemas hd
    exact .inl ⟨c, hc, hnode⟩
  · exact .inr hself

/-- **No node of the result is a reference**, whatever the targets are. -/
theorem Inlines.ref?_eq_none (h : Inlines document areas chain v w) :
    ∀ node ∈ w.nodes, Entries.ref? node = none := by
  induction h with
  | atom hv =>
    intro node hnode
    simp [Value.nodes_atom hv] at hnode
  | node g href _ ih =>
    intro node hnode
    rcases Value.exists_of_mem_nodes_mapSchemas hnode with ⟨c, hc, hbelow⟩ | rfl
    · exact ih c hc node hbelow
    · rw [Entries.ref?_mapSchemas, href]
  | reference _ _ _ _ _ _ _ _ ihtarget => exact ihtarget

theorem closed_of_inline (h : (inline document areas v).result = .ok w) : w.Closed :=
  Value.closed_iff_nodes.mpr (inline_eq_ok_iff.mp h).ref?_eq_none

/-- **What is closed is returned as it is**, and nothing is logged. -/
theorem inline_of_closed (h : v.Closed) (document : Value) (areas : List String) :
    inline document areas v = pure v := by
  rw [inline, inlineBudget, inlineWithin, ← walkM_pure v]
  refine Traced.walkM_congr fun node hnode g => ?_
  rw [Entries.ref?_mapSchemas, Value.closed_iff_nodes.mp h node hnode]

/-! ### Converted schemas -/

/-- Only a node is folded to a node. -/
theorem exists_folded {old : Option Value} (h : Option.Rel FoldsTo old (some (.mapping node))) :
    ∃ es, old = some (.mapping es) ∧ Entries.Folded es node := by
  cases h with
  | some hfolds =>
    cases hfolds with
    | atom hatom => simp [Value.isMapping] at hatom
    | node hfolded => exact ⟨_, rfl, hfolded⟩

/-- A node of the draft-04 form was a node of the schema, and `nullable` is gone from it. -/
theorem exists_node_of_toDraft4 (h : s.toDraft4 = .ok m)
    (hplace : (Value.mapping m).schemaAt? place = some (.mapping node)) :
    Entries.get? node Keyword.nullable = none ∧
      ∃ es, s.schemaAt? place = some (.mapping es) ∧ Entries.ref? node = Entries.ref? es := by
  obtain ⟨walked, hwalk, rfl⟩ := Interpretation.toDraft4_eq_ok h
  have hfolds := foldsTo_of_walkM hwalk place
  -- At the root the walk leaves a node that the dialect is put into afterwards.
  obtain ⟨inner, hinner, hnullable, href⟩ : ∃ inner,
      (Value.mapping walked).schemaAt? place = some (.mapping inner) ∧
        Entries.get? node Keyword.nullable = Entries.get? inner Keyword.nullable ∧
        Entries.ref? node = Entries.ref? inner := by
    by_cases hroot : place = []
    · subst hroot
      obtain rfl := Value.mapping.inj (Option.some.inj hplace)
      exact ⟨walked, rfl, Entries.get?_withDialect_of_ne (by decide), Entries.ref?_withDialect⟩
    · rw [schemaAt?_withDialect walked hroot] at hplace
      exact ⟨node, hplace, rfl, rfl⟩
  rw [hinner] at hfolds
  obtain ⟨es, hes, hfolded⟩ := exists_folded hfolds
  exact ⟨hnullable.trans hfolded.get?_nullable, es, hes, href.trans hfolded.ref?_eq⟩

/-- A schema that is converted with references replaced is closed and has no `nullable`. -/
theorem Conversion.closed_of_convertSchema {settings : ReferenceSettings} {name : String}
    {c : ConvertedSchema} (hinline : settings.inline = true)
    (h : (convertSchema document settings name).result = .ok c)
    (hplace : c.schema.schemaAt? place = some (.mapping node)) :
    Entries.ref? node = none ∧ Entries.get? node Keyword.nullable = none := by
  obtain ⟨target, schema, m, -, hschema, hm, rfl⟩ := convertSchema_eq_ok h
  rw [hinline, if_pos rfl] at hschema
  obtain ⟨hnullable, es, hes, href⟩ := exists_node_of_toDraft4 hm hplace
  exact ⟨href.trans (closed_of_inline hschema place es hes), hnullable⟩

/-- **Inlining is closed.**  If a schema can be inlined, no reference is left at a place of the
result, so inlining the result again returns it and logs nothing, against any document and any
areas.  If a conversion that replaces references succeeds, there is neither a reference nor
`nullable` at a place of a converted schema. -/
theorem inline_closed [Loader] (document : Value) (areas : List String) (v w : Value) :
    ((inline document areas v).result = .ok w →
      w.Closed ∧ ∀ other otherAreas, inline other otherAreas w = pure w) ∧
    ∀ request s t settings c,
      Yields (Conversion.loadSettings request) s (.ok settings) s →
      settings.references.inline = true →
      Yields (Conversion.run request : TracedT _ _ Conversion).untraced s (.ok c) t →
      ∀ schema ∈ c.schemas, ∀ place node,
        schema.schema.schemaAt? place = some (.mapping node) →
          Entries.ref? node = none ∧ Entries.get? node Keyword.nullable = none := by
  constructor
  · intro h
    have hclosed := closed_of_inline h
    exact ⟨hclosed, inline_of_closed hclosed⟩
  · intro request s t settings c hsettings hinline hrun schema hschema place node hplace
    obtain ⟨loaded, d, hloads, hschemas, -, -⟩ := Conversion.run_ok_iff.mp hrun
    obtain rfl := Except.ok.inj (hsettings.unique hloads.settings).1
    obtain ⟨names, -, hnames⟩ := bind_eq_ok.mp hschemas
    obtain ⟨name, -, hname⟩ := exists_mem_of_mapM hnames schema hschema
    exact Conversion.closed_of_convertSchema hinline hname hplace

namespace Spliced

/-- A document with a text and an array where schemas are referred to. -/
def root : Value :=
  .mapping [(.str "components", .mapping [(.str "schemas", .mapping [
    (.str "word", .str "text"),
    (.str "list", .array .list [.reference "#/components/schemas/gone"])])])]

/-- A node that refers to both of them. -/
def schema : Value :=
  .mapping [(.str "allOf", .array .list [.reference "#/components/schemas/word"]),
    (.str "items", .reference "#/components/schemas/list")]

/-- A reference is left in the array, which is not the place of a schema. -/
def inlined : Value :=
  .mapping [(.str "allOf", .array .list [.str "text"]),
    (.str "items", .array .list [.reference "#/components/schemas/gone"])]

/-- A working directory with a document and with settings that replace references. -/
def store : Store :=
  (Conversion.petStore ("Pet: \x7bitems: \x7b$ref: '#/components/schemas/Tag'\x7d\x7d, " ++
    "Tag: \x7btype: string, nullable: true\x7d")).put ["settings.yaml"]
      (.file "references: \x7binline: true\x7d\n".toUTF8)

/-- All schemas of the document are to be converted with the settings. -/
def request : ConversionRequest := { document := "pets.yaml", settings := some "settings.yaml" }

end Spliced

/-- The reference that is left is not followed by another run, and the converted pets and tags are
closed. -/
theorem inline_closed_spliced :
    (∀ other otherAreas, inline other otherAreas Spliced.inlined = pure Spliced.inlined) ∧
      ∃ c t, Yields (Conversion.run Spliced.request : TracedT _ _ Conversion).untraced Spliced.store
        (.ok c) t ∧ ∀ schema ∈ c.schemas, ∀ node,
          schema.schema.schemaAt? [(.items, 0)] = some (.mapping node) →
            Entries.ref? node = none ∧ Entries.get? node Keyword.nullable = none := by
  have hsettings : ((Conversion.loadSettings Spliced.request :
      ExceptT _ (StateM Store) _).run.run Spliced.store).run.1.toOption =
        some ⟨⟨defaultAreas, true⟩, ⟨2, false⟩⟩ := by
    decide +kernel
  have hruns : (((Conversion.run Spliced.request :
      TracedT _ (StateM Store) Conversion).untraced.run.run
        Spliced.store).run.1.toOption).isSome = true := by
    decide +kernel
  obtain ⟨c, hc⟩ := Option.isSome_iff_exists.mp hruns
  obtain ⟨hinline, hconvert⟩ :=
    inline_closed Spliced.root defaultAreas Spliced.schema Spliced.inlined
  refine ⟨(hinline rfl).2, c, _, .of_toOption hc, fun schema hschema node hplace => ?_⟩
  have hloads := (Conversion.quiet_loadSettings Spliced.request).yields
    (toOption_eq_some_iff.mp hsettings)
  exact hconvert _ _ _ _ _ hloads rfl (.of_toOption hc) schema hschema _ node hplace

end ApiSchema
