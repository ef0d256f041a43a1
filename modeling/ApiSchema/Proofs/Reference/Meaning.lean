/-
Inlining keeps what a schema means.

A reference should mean what its target means.  A reading of schemas where this
holds of every reference that can be reached cannot tell an inlined schema from
the one it was made from.  The induction is over the derivation, because a target
is not a part of the schema that refers to it: what it brings along comes from
the document, and the rule for references is the place where the two meet.

Targets have to be mappings.  A slot that held a reference would otherwise hold
no schema at all once the reference is replaced.

Since the mapping to draft-04 keeps the meaning too, a component schema that is
converted with its references replaced admits the instances of the one that is
converted with its references in place.
-/
import ApiSchema.Conversion
import ApiSchema.Proofs.Reference.Expansion
import ApiSchema.Proofs.Schema.Dialect

namespace ApiSchema

variable {ι : Type} {document v w : Value} {areas chain : List String}

/-- A reference that can be reached means what its target means. -/
def Semantics.Consistent (S : Semantics ι) (document : Value) (areas : List String) (v : Value) :
    Prop :=
  ∀ ref, Reachable document areas v ref →
    ∀ t, resolve document areas (.reference ref) = .ok t → ∀ x, S.reference ref x ↔ S.Valid t x

/-- Every reference that can be reached resolves to a mapping. -/
def RefersToMappings (document : Value) (areas : List String) (v : Value) : Prop :=
  ∀ ref, Reachable document areas v ref →
    ∃ es, resolve document areas (.reference ref) = .ok (.mapping es)

/-- **A derivation keeps the meaning**, and it turns a mapping into a mapping. -/
theorem Inlines.valid_eq (S : Semantics ι) (h : Inlines document areas chain v w)
    (htargets : RefersToMappings document areas v) (hconsistent : S.Consistent document areas v) :
    S.Valid w = S.Valid v ∧ (v.isMapping = true → w.isMapping = true) := by
  induction h with
  | atom hv => exact ⟨rfl, id⟩
  | node g href _ ih =>
    have below (c : Value) (hc : c ∈ Entries.subschemas _) :=
      ih c hc (fun ref href => htargets ref (.of_subschema hc href))
        fun ref href => hconsistent ref (.of_subschema hc href)
    refine ⟨?_, fun _ => rfl⟩
    exact S.valid_mapSchemas (fun c hc => (below c hc).2) fun c hc => (below c hc).1
  | @reference chain es ref t w g href _ _ _ target _ _ ih =>
    have hreached : Reachable document areas (.mapping es) ref := .of_reference href
    obtain ⟨hvalid, hmapping⟩ := ih
      (fun next hnext => htargets next (hreached.of_target target hnext))
      fun next hnext => hconsistent next (hreached.of_target target hnext)
    constructor
    · rw [hvalid, S.valid_reference href]
      funext x
      exact propext (hconsistent ref hreached t target x).symm
    · intro _
      obtain ⟨fs, hfs⟩ := htargets ref hreached
      obtain rfl : t = .mapping fs := Except.ok.inj (target.symm.trans hfs)
      exact hmapping rfl

/-! ### Conversions -/

/-- A conversion that succeeds maps the target of the name, inlined if the settings say so. -/
theorem Conversion.convertSchema_eq_ok {settings : ReferenceSettings} {name : String}
    {c : ConvertedSchema} (h : (convertSchema document settings name).result = .ok c) :
    ∃ s schema m,
      resolve document settings.areas (.reference (Document.schemaReference name)) = .ok s ∧
      (if settings.inline then (inline document settings.areas s).result = .ok schema
        else schema = s) ∧
      schema.toDraft4 = .ok m ∧ c = ⟨name, .mapping m⟩ := by
  rw [convertSchema, Traced.result_bind] at h
  obtain ⟨schema, hschema, hrest⟩ := bind_eq_ok.mp h
  have hreferences := mapError_eq_ok.mp hschema
  rw [Traced.result_bind] at hreferences
  obtain ⟨s, hs, hinline⟩ := bind_eq_ok.mp hreferences
  rw [Traced.result_bind] at hrest
  obtain ⟨m, hm, hc⟩ := bind_eq_ok.mp hrest
  refine ⟨s, schema, m, ?_, ?_, ?_, ?_⟩
  · exact result_resolveLogged_eq_ok_iff.mp hs
  · cases hsetting : settings.inline with
    | true => simpa [hsetting] using hinline
    | false =>
      rw [hsetting] at hinline
      exact (Except.ok.inj hinline).symm
  · rw [mapLogged] at hm
    split at hm
    · exact mapError_eq_ok.mp hm
    · exact mapError_eq_ok.mp hm
  · exact (Except.ok.inj hc).symm

/-- **An inlined schema admits the instances of the schema**, and a conversion
with references replaced those of a conversion with references in place. -/
theorem valid_inline (document : Value) (areas : List String) :
    (∀ (S : Semantics ι) (v w : Value), (inline document areas v).result = .ok w →
      RefersToMappings document areas v → S.Consistent document areas v →
      ∀ x, S.Valid w x ↔ S.Valid v x) ∧
    ∀ (I : Interpretation ι) (name : String) (s : Value) (replaced kept : ConvertedSchema),
      resolve document areas (.reference (Document.schemaReference name)) = .ok s →
      RefersToMappings document areas s → I.openApi.Consistent document areas s →
      (Conversion.convertSchema document ⟨areas, true⟩ name).result = .ok replaced →
      (Conversion.convertSchema document ⟨areas, false⟩ name).result = .ok kept →
      ∀ x, I.draft4.Valid replaced.schema x ↔ I.draft4.Valid kept.schema x := by
  constructor
  · intro S v w h htargets hconsistent x
    exact iff_of_eq (congrFun ((inline_eq_ok_iff.mp h).valid_eq S htargets hconsistent).1 x)
  · intro I name s replaced kept hs htargets hconsistent hreplaced hkept x
    obtain ⟨s₁, inlined, m₁, hs₁, hinline, hm₁, rfl⟩ := Conversion.convertSchema_eq_ok hreplaced
    obtain ⟨s₂, schema, m₂, hs₂, hschema, hm₂, rfl⟩ := Conversion.convertSchema_eq_ok hkept
    obtain rfl : s = s₁ := Except.ok.inj (hs.symm.trans hs₁)
    obtain rfl : s = s₂ := Except.ok.inj (hs.symm.trans hs₂)
    obtain rfl : schema = s := hschema
    have hinlines := inline_eq_ok_iff.mp hinline
    have hvalid := (hinlines.valid_eq I.openApi htargets hconsistent).1
    rw [I.draft4_eq_openApi hm₁, I.draft4_eq_openApi hm₂, hvalid]

theorem Sharing.reachable_pair {ref : String}
    (h : Reachable root defaultAreas (.mapping (pair leafReference)) ref) :
    ref = "#/components/schemas/leaf" := by
  obtain ⟨first, hfirst, hpath⟩ := h
  have hreferences : (Value.mapping (pair leafReference)).references =
      ["#/components/schemas/leaf", "#/components/schemas/leaf"] := rfl
  obtain rfl : first = "#/components/schemas/leaf" := by simpa [hreferences] using hfirst
  rcases hpath.cases_head with rfl | ⟨next, ⟨t, ht, hnext⟩, -⟩
  · rfl
  · obtain rfl : leaf = t := Except.ok.inj ht
    have hnone : leaf.references = [] := rfl
    simp [hnone] at hnext

/-- The plain reading in which every reference admits the texts. -/
def Interpretation.texts : Interpretation Value := plain fun _ x => x.text?.isSome = true

/-- A reference to the leaf admits the texts, as the leaf does, so the pair admits
the same instances with its references replaced. -/
theorem valid_inline_sharing :
    (∀ x, Interpretation.texts.openApi.Valid (.mapping (Sharing.pair Sharing.leaf)) x ↔
        Interpretation.texts.openApi.Valid (.mapping (Sharing.pair Sharing.leafReference)) x) ∧
      ∀ x, Interpretation.texts.draft4.Valid
          (.mapping (Entries.withDialect (Sharing.pair Sharing.leaf))) x ↔
        Interpretation.texts.draft4.Valid
          (.mapping (Entries.withDialect (Sharing.pair Sharing.leafReference))) x := by
  have htargets : RefersToMappings Sharing.root defaultAreas
      (.mapping (Sharing.pair Sharing.leafReference)) := by
    intro ref href
    rw [Sharing.reachable_pair href]
    exact ⟨[(.str "type", .str "string")], rfl⟩
  have hconsistent : Interpretation.texts.openApi.Consistent Sharing.root defaultAreas
      (.mapping (Sharing.pair Sharing.leafReference)) := by
    intro ref href t ht x
    rw [Sharing.reachable_pair href] at ht
    obtain rfl : Sharing.leaf = t := Except.ok.inj ht
    rw [Sharing.leaf, Semantics.valid_node _ rfl]
    constructor
    · intro htext
      exact ⟨.inl (.inr ⟨rfl, htext⟩), by rintro c ⟨⟩⟩
    · rintro ⟨(⟨hnull, -⟩ | ⟨-, htext⟩) | ⟨hnullable, -⟩, -⟩
      · exact absurd hnull (by decide)
      · exact htext
      · exact absurd hnullable (by decide)
  obtain ⟨hinline, hconvert⟩ := valid_inline Sharing.root defaultAreas
  exact ⟨hinline _ _ _ rfl htargets hconsistent,
    hconvert _ "pair" _ _ _ rfl htargets hconsistent rfl rfl⟩

end ApiSchema
