/-
What a schema means.

A meaning says which instances a schema admits.  It is built from the leaves up:
a node means something that depends on what the schemas in its slots mean and on
its remaining entries, and on nothing else.  How it depends on them is left
open, as is what a reference and a value that is not a mapping mean.  So what is
shown about `Semantics` holds of every reading of the keywords.

A node with its schemas replaced by others of the same meaning means the same.
The one condition is that a mapping is not replaced by anything else: a slot
that holds `true` holds no schema.
-/
import ApiSchema.Proofs.Schema.Replace

namespace ApiSchema

/-- A reading of schemas, as predicates on the instances in `ι`. -/
structure Semantics (ι : Type) where
  /-- What a value means that is not a mapping. -/
  atom : Value → ι → Prop
  /-- What a reference means. -/
  reference : String → ι → Prop
  /-- What any other node means, by the meanings of the schemas in its slots and its own entries. -/
  node : (Slot → Option (Content (ι → Prop))) → Entries → ι → Prop

namespace Semantics

variable {ι : Type} (S : Semantics ι)

/-- The instance is valid for the schema.  What stands beside a reference is ignored. -/
def Valid : Value → ι → Prop :=
  Value.fold S.atom fun es held =>
    match Entries.ref? es with
    | some ref => S.reference ref
    | none => S.node held (Entries.own es)

variable {es : Entries} {v : Value} {g : Value → Value}

theorem valid_atom (h : v.isMapping = false) : S.Valid v = S.atom v :=
  Value.fold_atom _ _ h

theorem valid_reference {ref : String} (h : Entries.ref? es = some ref) :
    S.Valid (.mapping es) = S.reference ref := by
  rw [Valid, Value.fold_mapping]
  simp only [h]

theorem valid_node (h : Entries.ref? es = none) :
    S.Valid (.mapping es) =
      S.node (fun slot => (Entries.content? es slot).map (Content.map S.Valid))
        (Entries.own es) := by
  rw [Valid, Value.fold_mapping]
  simp only [h]

/-- **A node keeps its meaning when its schemas are replaced by others of the
same meaning.** -/
theorem valid_mapSchemas
    (hg : ∀ c ∈ Entries.subschemas es, c.isMapping = true → (g c).isMapping = true)
    (hvalid : ∀ c ∈ Entries.subschemas es, S.Valid (g c) = S.Valid c) :
    S.Valid (.mapping (Entries.mapSchemas g es)) = S.Valid (.mapping es) := by
  cases href : Entries.ref? es with
  | some ref =>
    rw [S.valid_reference href, S.valid_reference (Entries.ref?_mapSchemas.trans href)]
  | none =>
    rw [S.valid_node href, S.valid_node (Entries.ref?_mapSchemas.trans href),
      Entries.own_mapSchemas hg]
    congr 1
    funext slot
    exact Entries.map_content?_mapSchemas hg hvalid slot

end Semantics

end ApiSchema
