/-
The component schemas of a document.

They stand under `schemas` in what stands under `components`, so a document whose
component schemas are exchanged is the same at every place that is neither around
them nor in one of those that differ.
-/
import ApiSchema.Document

namespace ApiSchema.Document

variable {root schemas new : Entries} {changed : String → Prop} {place : List String}

theorem componentSchemas?_eq_some_iff :
    componentSchemas? root = some schemas ↔
      ∃ components, Entries.get? root "components" = some (.mapping components) ∧
        Entries.get? components "schemas" = some (.mapping schemas) := by
  simp only [componentSchemas?, Option.bind_eq_bind, Option.bind_eq_some_iff,
    Value.entries?_eq_some_iff]
  constructor
  · rintro ⟨_, hcomponents, components, rfl, _, hschemas, rfl⟩
    exact ⟨components, hcomponents, hschemas⟩
  · rintro ⟨components, hcomponents, hschemas⟩
    exact ⟨_, hcomponents, components, rfl, _, hschemas, rfl⟩

/-- The root with these component schemas in place of its own. -/
def setSchemas (root schemas : Entries) : Entries :=
  let components := ((Entries.get? root "components").bind Value.entries?).getD []
  Entries.set root "components" (.mapping (Entries.set components "schemas" (.mapping schemas)))

/-- The place is neither one around the component schemas nor one in a changed schema. -/
def Apart (changed : String → Prop) (place : List String) : Prop :=
  ¬ place <+: ["components", "schemas"] ∧
    ∀ name, changed name → ¬ ["components", "schemas", name] <+: place

theorem at?_cons (v : Value) (name : String) (place : List String) :
    v.at? (name :: place) = (v.child? name).bind fun w => w.at? place := List.foldlM_cons

/-- Apart from the changed schemas the document is the same. -/
theorem at?_setSchemas (hschemas : componentSchemas? root = some schemas)
    (hnew : ∀ name, ¬ changed name → Entries.get? new name = Entries.get? schemas name)
    (hplace : Apart changed place) :
    (Value.mapping (setSchemas root new)).at? place = (Value.mapping root).at? place := by
  obtain ⟨components, hcomponents, hentries⟩ := componentSchemas?_eq_some_iff.mp hschemas
  have hset : setSchemas root new = Entries.set root "components"
      (.mapping (Entries.set components "schemas" (.mapping new))) := by
    rw [setSchemas, hcomponents]
    rfl
  rw [hset]
  obtain ⟨haround, hinside⟩ := hplace
  match place with
  | [] => simp at haround
  | first :: place =>
    rw [at?_cons, at?_cons]
    by_cases hfirst : first = "components"
    · subst hfirst
      simp only [Value.child?, Entries.get?_set_self, hcomponents, Option.bind_some]
      match place with
      | [] => simp at haround
      | second :: place =>
        rw [at?_cons, at?_cons]
        by_cases hsecond : second = "schemas"
        · subst hsecond
          simp only [Value.child?, Entries.get?_set_self, hentries, Option.bind_some]
          match place with
          | [] => simp at haround
          | name :: place =>
            have hname : ¬ changed name := fun hchanged => hinside name hchanged (by simp)
            simp only [at?_cons, Value.child?, hnew name hname]
        · simp only [Value.child?, Entries.get?_set_of_ne hsecond]
    · simp only [Value.child?, Entries.get?_set_of_ne hfirst]

end ApiSchema.Document
