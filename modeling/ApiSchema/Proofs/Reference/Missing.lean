/-
What is said about a path that leads nowhere.

The path of a reference is reported as far as the first name that leads nowhere.  This
place is the right one: nothing stands there, and something stands at every place in
front of it.  But the message writes its names as they are.  So what it quotes is a
pointer to the place only as long as no name on the way has a slash or an escape;
otherwise it points elsewhere, and something may well stand there.
-/
import ApiSchema.Proofs.Pointer.Unescaped
import ApiSchema.Proofs.Reference.Resolution

namespace ApiSchema

variable {document node v : Value} {areas : List String} {path place shorter : List String}

namespace BreaksAt

theorem place_prefix (h : BreaksAt v path place) : place <+: path := by
  obtain ⟨before, name, after, w, rfl, rfl, -, -⟩ := h
  exact ⟨after, by simp⟩

theorem place_ne_nil (h : BreaksAt v path place) : place ≠ [] := by
  obtain ⟨before, name, after, w, -, rfl, -, -⟩ := h
  simp

/-- Nothing stands at the place. -/
theorem at?_place (h : BreaksAt v path place) : v.at? place = none := by
  obtain ⟨before, name, after, w, -, rfl, hbefore, hnone⟩ := h
  rw [Value.at?_append, hbefore, Option.bind_some, Document.at?_cons,
    Value.child?_eq_none_iff.mpr hnone, Option.bind_none]

/-- Every beginning of the path at which nothing stands begins with the place. -/
theorem place_prefix_of_at? (h : BreaksAt v path place) (hshorter : shorter <+: path)
    (hnone : v.at? shorter = none) : place <+: shorter := by
  obtain ⟨before, name, after, w, rfl, rfl, hbefore, -⟩ := h
  rcases List.prefix_or_prefix_of_prefix hshorter ⟨name :: after, rfl⟩ with hin | hbeyond
  · -- What stands before the last name of the place has something in front of it everywhere.
    obtain ⟨rest, rfl⟩ := hin
    rw [Value.at?_append, hnone] at hbefore
    simp at hbefore
  · obtain ⟨rest, rfl⟩ := hbeyond
    rw [List.prefix_append_right_inj] at hshorter
    cases rest with
    | nil =>
      rw [List.append_nil] at hnone
      rw [hnone] at hbefore
      simp at hbefore
    | cons first rest =>
      obtain ⟨rfl, -⟩ := List.cons_prefix_cons.mp hshorter
      exact ⟨rest, by simp⟩

end BreaksAt

/-- **A path that leads nowhere is reported at the right place**, the shortest beginning
of the path at which nothing stands.  The message writes the names of the place as
they are, so what it quotes is read as the place exactly if no name has a slash or an
escape; the canonical spelling would always be. -/
theorem missing_quoted (h : kindOf (resolve document areas node) = .error .unresolvedPath) :
    ∃ ref p place, node.RefersTo ref ∧ Pointer.parse? ref = some p ∧
      resolve document areas node = .error (.missing ref place) ∧
      (place <+: p.segments ∧ document.at? place = none ∧
        ∀ shorter, shorter <+: p.segments → document.at? shorter = none → place <+: shorter) ∧
      (ReferenceError.missing ref place).message = "Could not resolve $ref '" ++ ref ++ "': '" ++
        Pointer.join place ++ "' does not exist." ∧
      (∃ q, Pointer.parse? (Pointer.join place) = some q ∧
        (q.segments = place ↔ ∀ name ∈ place, Pointer.Unmarked name) ∧
        ((∀ name ∈ place, Pointer.Unmarked name) → document.at? q.segments = none)) ∧
      ∃ q, Pointer.parse? (Pointer.write place) = some q ∧ q.segments = place := by
  have hresolution := resolution document areas node
  generalize resolve document areas node = result at h hresolution
  cases hresolution with
  | notAReference hnone => simp [ReferenceError.kind] at h
  | refused href hrefused => simp [hrefused.kind] at h
  | found href _ _ _ => simp at h
  | @missing ref p place href _ hp hbreaks =>
    refine ⟨ref, p, place, href, hp, rfl, ⟨hbreaks.place_prefix, hbreaks.at?_place, ?_⟩, rfl,
      ⟨_, Pointer.parse?_join hbreaks.place_ne_nil, Pointer.flatMap_reread_eq_iff, ?_⟩,
      ⟨_, Pointer.parse?_write hbreaks.place_ne_nil, rfl⟩⟩
    · intro shorter hshorter hnone
      exact hbreaks.place_prefix_of_at? hshorter hnone
    · intro hunmarked
      show document.at? (place.flatMap Pointer.reread) = none
      rw [Pointer.flatMap_reread_eq_iff.mpr hunmarked]
      exact hbreaks.at?_place

namespace Nested

/-- A document with a schema that holds a mapping. -/
def root : Value :=
  .mapping [(.str "components", .mapping [(.str "schemas", .mapping [
    (.str "a", .mapping [(.str "b", .mapping [])])])])]

end Nested

/-- A path without marks, which breaks off before its end, is quoted up to there. -/
theorem missing_quoted_nested :
    resolve Nested.root defaultAreas (.reference "#/components/schemas/a/c/d") =
        .error (.missing "#/components/schemas/a/c/d" ["components", "schemas", "a", "c"]) ∧
      ∃ q, Pointer.parse? "#/components/schemas/a/c" = some q ∧
        Nested.root.at? q.segments = none := by
  have hfails : resolve Nested.root defaultAreas (.reference "#/components/schemas/a/c/d") =
      .error (.missing "#/components/schemas/a/c/d" ["components", "schemas", "a", "c"]) := rfl
  have hkind : kindOf (resolve Nested.root defaultAreas (.reference "#/components/schemas/a/c/d")) =
      .error .unresolvedPath := congrArg kindOf hfails
  obtain ⟨ref, p, place, -, -, hmissing, -, -, ⟨q, hq, -, hnone⟩, -⟩ := missing_quoted hkind
  obtain ⟨rfl, rfl⟩ := ReferenceError.missing.inj (Except.error.inj (hfails.symm.trans hmissing))
  exact ⟨hfails, q, hq, hnone (by decide)⟩

/-- There is no schema with a slash in its name, but the message says so of a place where something
stands. -/
theorem missing_misquoted :
    ∃ place, resolve Nested.root defaultAreas (.reference "#/components/schemas/a~1b") =
        .error (.missing "#/components/schemas/a~1b" place) ∧
      ∃ q, Pointer.parse? (Pointer.join place) = some q ∧ q.segments ≠ place ∧
        Nested.root.at? q.segments = some (.mapping []) := by
  refine ⟨["components", "schemas", "a/b"], rfl, ?_⟩
  exact ⟨_, rfl, by decide, rfl⟩

end ApiSchema
