/-
The keys beside a reference.

A reference node gives way to its target whatever stands beside the reference.  But a
walk comes to the schemas of a node before the node, so those beside a reference are
inlined too, and then dropped.  They can make the run fail, with a reference of their
own that does not resolve or leads back to itself; and keys that have no order fail
when they are sorted for the log.  That is all that they can do.

Both directions of the comparison are one statement on derivations (`Inlines.replaceAt`):
a schema may be exchanged for one that has every answer of the old one.  The node and
the bare reference can be exchanged for each other, the first way always and the second
way if what stands beside the reference does not fail.
-/
import ApiSchema.Proofs.Reference.Expansion
import ApiSchema.Proofs.Schema.Exchange
import ApiSchema.Proofs.TextKeys

namespace ApiSchema

open Entries (subschemas mapSchemas membersOf modifyMember)

variable {document v w old new c : Value} {areas chain : List String} {es : Entries} {ref : String}
  {place : Place} {slot : Slot} {i : Nat} {f : Value → Value}

/-! ### Exchanging a schema -/

/-- What inlining makes of a schema, or the schema itself if it fails. -/
def inlined (document : Value) (areas : List String) (v : Value) : Value :=
  answer (fun c => (inline document areas c).result) v

theorem Inlines.inlined_eq (h : Inlines document areas chain v w) :
    inlined document areas v = w :=
  answer_eq (inline_eq_ok_iff.mpr (h.shorten (List.nil_subset _)))

/-- The schemas of a node are inlined with it. -/
theorem Inlines.subschema (h : Inlines document areas chain (.mapping es) w) (hc : c ∈ subschemas es) :
    Inlines document areas chain c (inlined document areas c) := by
  cases h with
  | atom hv => simp [Value.isMapping] at hv
  | node g _ below => exact (below c hc).inlined_eq ▸ below c hc
  | reference g _ below => exact (below c hc).inlined_eq ▸ below c hc

/-- So are those at all places. -/
theorem Inlines.exists_at (h : Inlines document areas chain v w)
    (hplace : v.schemaAt? place = some c) : ∃ u, Inlines document areas chain c u := by
  induction place generalizing v w with
  | nil => exact ⟨w, Option.some.inj hplace ▸ h⟩
  | cons step place ih =>
    obtain ⟨es, d, rfl, hd, hplace⟩ := Value.exists_member_of_schemaAt?_cons hplace
    exact ih (h.subschema (Entries.mem_subschemas_of_membersOf (List.mem_of_getElem? hd))) hplace

/-- A member of a slot may be exchanged for a schema that has its answer. -/
theorem Inlines.modifyMember (h : Inlines document areas chain (.mapping es) w)
    (hf : ∀ c, (membersOf es slot)[i]? = some c → c.isMapping = true → (f c).isMapping = true)
    (hnew : ∀ c u, (membersOf es slot)[i]? = some c → Inlines document areas chain c u →
      Inlines document areas chain (f c) u) :
    Inlines document areas chain (.mapping (modifyMember slot i f es)) w := by
  have hsame (c : Value) (hc : (membersOf es slot)[i]? = some c) :
      Inlines document areas chain (f c) (inlined document areas c) :=
    hnew c _ hc (h.subschema (Entries.mem_subschemas_of_membersOf (List.mem_of_getElem? hc)))
  have hbelow (d : Value) (hd : d ∈ subschemas (Entries.modifyMember slot i f es)) :
      Inlines document areas chain d (inlined document areas d) := by
    rcases Entries.mem_subschemas_modifyMember hf hd with hold | ⟨c, hc, rfl⟩
    · exact h.subschema hold
    · exact (hsame c hc).inlined_eq ▸ hsame c hc
  cases h with
  | atom hv => simp [Value.isMapping] at hv
  | node g href below =>
    have hg : mapSchemas g es =
        mapSchemas (inlined document areas) (Entries.modifyMember slot i f es) := by
      rw [Entries.mapSchemas_modifyMember hf fun c hc => (hsame c hc).inlined_eq]
      exact Entries.mapSchemas_congr fun c hc => (below c hc).inlined_eq.symm
    rw [hg]
    exact .node _ (Entries.ref?_modifyMember.trans href) hbelow
  | reference g href _ fresh siblings target expanded =>
    have hkeys : Entries.keys (Entries.modifyMember slot i f es) = Entries.keys es :=
      Entries.keys_modifyMember
    rw [← noteSiblings_congr hkeys] at siblings
    exact .reference _ (Entries.ref?_modifyMember.trans href) hbelow fresh siblings target expanded

/-- **A schema may be exchanged for one that has its answers.** -/
theorem Inlines.replaceAt (h : Inlines document areas chain v w)
    (hplace : v.schemaAt? place = some old) (hmapping : new.isMapping = true)
    (hnew : ∀ u, Inlines document areas chain old u → Inlines document areas chain new u) :
    Inlines document areas chain (v.replaceAt place new) w := by
  induction place generalizing v w with
  | nil =>
    obtain rfl := Option.some.inj hplace
    rw [Value.replaceAt_nil]
    exact hnew w h
  | cons step place ih =>
    obtain ⟨es, c, rfl, hc, hplace⟩ := Value.exists_member_of_schemaAt?_cons hplace
    refine h.modifyMember (fun _ _ => Value.isMapping_replaceAt hmapping) fun d u hd hdu => ?_
    obtain rfl := Option.some.inj (hc.symm.trans hd)
    exact ih hdu hplace

/-! ### A bare reference -/

/-- Without what stands beside it a reference has the same answers. -/
theorem Inlines.bare (h : Inlines document areas chain (.mapping es) w)
    (href : Entries.ref? es = some ref) : Inlines document areas chain (.reference ref) w := by
  cases h with
  | atom hv => simp [Value.isMapping] at hv
  | node g hnone => simp [href] at hnone
  | reference g hother _ fresh _ target expanded =>
    obtain rfl := Option.some.inj (href.symm.trans hother)
    exact .reference id ref?_reference (by simp [subschemas_reference]) fresh rfl target expanded

/-- What stands beside a reference changes no answer, if it can be passed. -/
theorem Inlines.beside (h : Inlines document areas chain (.reference ref) w)
    (href : Entries.ref? es = some ref)
    (below : ∀ c ∈ subschemas es, ∃ u, Inlines document areas chain c u)
    (siblings : (noteSiblings ref es).result = .ok ()) :
    Inlines document areas chain (.mapping es) w := by
  have hbelow (c : Value) (hc : c ∈ subschemas es) :
      Inlines document areas chain c (inlined document areas c) := by
    obtain ⟨u, hu⟩ := below c hc
    exact hu.inlined_eq ▸ hu
  cases h with
  | atom hv => simp [Value.reference, Value.isMapping] at hv
  | node g hnone => simp [ref?_reference] at hnone
  | reference g hother _ fresh _ target expanded =>
    obtain rfl := Option.some.inj (ref?_reference.symm.trans hother)
    exact .reference _ href hbelow fresh siblings target expanded

/-- **The keys beside a reference have no effect but that a run may fail for them.**  If a schema is
inlined in which a node is a reference, then so is the schema with nothing beside the reference,
with the same result, and every schema beside the reference can be inlined.  If the keys beside the
reference can be sorted and every schema beside it can be inlined, the two runs succeed together. -/
theorem inline_siblings (document : Value) (areas : List String) {s : Value} {place : Place}
    {es : Entries} {ref : String} (hplace : s.schemaAt? place = some (.mapping es))
    (href : Entries.ref? es = some ref) :
    (∀ w, (inline document areas s).result = .ok w →
      (inline document areas (s.replaceAt place (.reference ref))).result = .ok w ∧
        ∀ c ∈ subschemas es, ∃ u, (inline document areas c).result = .ok u) ∧
    (Scalar.Sortable (Entries.siblings es) →
      (∀ c ∈ subschemas es, ∃ u, (inline document areas c).result = .ok u) →
      ∀ w, (inline document areas s).result = .ok w ↔
        (inline document areas (s.replaceAt place (.reference ref))).result = .ok w) := by
  simp only [inline_eq_ok_iff]
  have hbare (w : Value) (h : Inlines document areas [] s w) :
      Inlines document areas [] (s.replaceAt place (.reference ref)) w :=
    h.replaceAt hplace rfl fun _ hu => hu.bare href
  refine ⟨fun w h => ⟨hbare w h, fun c hc => ?_⟩, fun hkeys hbelow w => ⟨hbare w, fun h => ?_⟩⟩
  · obtain ⟨u, hu⟩ := h.exists_at hplace
    exact ⟨_, hu.subschema hc⟩
  · have hback : Inlines document areas []
        ((s.replaceAt place (.reference ref)).replaceAt place (.mapping es)) w :=
      h.replaceAt (Value.schemaAt?_replaceAt rfl hplace) rfl fun _ hu =>
        hu.beside href hbelow (noteSiblings_of_sortable ref hkeys)
    rwa [Value.replaceAt_replaceAt rfl hplace, Value.replaceAt_self hplace] at hback

namespace Beside

/-- A document with two schemas that refer to nothing. -/
def root : Value :=
  .mapping [(.str "components", .mapping [(.str "schemas", .mapping [
    (.str "A", .mapping [(.str "type", .str "string")]),
    (.str "B", .mapping [(.str "type", .str "integer")])])])]

/-- A reference to the first schema, with one to the second beside it. -/
def node : Entries :=
  [(.str "allOf", .array .list [.reference "#/components/schemas/B"]),
    (.str "$ref", .str "#/components/schemas/A"), (.str "type", .str "object")]

/-- A reference to the first schema, with one that leads nowhere beside it. -/
def lost : Entries :=
  [(.str "$ref", .str "#/components/schemas/A"),
    (.str "items", .reference "#/components/schemas/missing")]

end Beside

/-- The node gives way to the first schema, as the bare reference does. -/
theorem inline_siblings_node :
    Scalar.Sortable (Entries.siblings Beside.node) ∧
      (inline Beside.root defaultAreas (.mapping [(.str "items", .mapping Beside.node)])).result =
        .ok (.mapping [(.str "items", .mapping [(.str "type", .str "string")])]) := by
  have hplace : (Value.mapping [(.str "items", .mapping Beside.node)]).schemaAt? [(.items, 0)] =
      some (.mapping Beside.node) := rfl
  have hkeys : Scalar.Sortable (Entries.siblings Beside.node) := by decide
  have hbelow : ∀ c ∈ subschemas Beside.node,
      ∃ u, (inline Beside.root defaultAreas c).result = .ok u := by
    intro c hc
    obtain rfl : c = .reference "#/components/schemas/B" := List.mem_singleton.mp hc
    exact ⟨.mapping [(.str "type", .str "integer")], rfl⟩
  obtain ⟨-, htogether⟩ := inline_siblings Beside.root defaultAreas hplace rfl
  exact ⟨hkeys, (htogether hkeys hbelow _).mpr rfl⟩

/-- A reference beside another one makes the run fail if it leads nowhere, though the run goes
through without it. -/
theorem inline_lost_sibling :
    Entries.ref? Beside.lost = some "#/components/schemas/A" ∧
      (inline Beside.root defaultAreas (.mapping Beside.lost)).result =
        .error (.error (.missing "#/components/schemas/missing"
          ["components", "schemas", "missing"])) ∧
      (inline Beside.root defaultAreas (.reference "#/components/schemas/A")).result =
        .ok (.mapping [(.str "type", .str "string")]) :=
  ⟨rfl, rfl, rfl⟩

end ApiSchema
