/-
Replacing references does not depend on the order of entries.

A reference names a place by keys, so in alike documents it leads to alike targets
or nowhere.  A run replaces references node by node in a walk, and the walks of
alike schemas give alike answers; what has to be shown is that a single node is
replaced alike, with the same budget and under the same chain.  That needs the
keys to be texts: those beside a reference are sorted for the log, and sorting
them must not fail.
-/
import ApiSchema.Proofs.Reference.Locality
import ApiSchema.Proofs.Schema.Reordering

namespace ApiSchema.Alike

variable {document other v w a t : Value} {areas chain : List String} {ref : String}
  {budget : Nat}

theorem at? (h : Alike v w) (place : List String) :
    Option.Rel Alike (v.at? place) (w.at? place) := by
  induction place generalizing v w with
  | nil => exact .some h
  | cons name place ih =>
    have hchild : Option.Rel Alike (v.child? name) (w.child? name) := by
      have hr := h.reordered
      cases hr with
      | mapping _ _ => exact h.lookup name
      | _ => exact .none
    rw [Document.at?_cons, Document.at?_cons]
    rcases rel_cases hchild with ⟨hv, hw⟩ | ⟨x, y, hv, hw, hxy⟩
    · rw [hv, hw]
      exact .none
    · rw [hv, hw]
      exact ih hxy

/-- A reference that leads somewhere leads to an alike place of an alike document. -/
theorem resolve (h : Alike document other)
    (ht : ApiSchema.resolve document areas (.reference ref) = .ok t) :
    ∃ u, ApiSchema.resolve other areas (.reference ref) = .ok u ∧ Alike t u := by
  obtain ⟨p, hp, hplace⟩ := resolve_eq_ok_iff.mp ht
  obtain ⟨u, hu, htu⟩ := exists_of_rel_some (h.at? p.segments) hplace
  exact ⟨u, resolve_eq_ok_iff.mpr ⟨p, hp, hu⟩, htu⟩

theorem inlineWithin (hdocument : Alike document other) (h : Alike v w)
    (ha : (ApiSchema.inlineWithin document areas budget chain v).result = .ok a) :
    ∃ b, (ApiSchema.inlineWithin other areas budget chain w).result = .ok b ∧ Alike a b := by
  induction budget generalizing chain v w a with
  | zero => simp [ApiSchema.inlineWithin] at ha
  | succ budget ih =>
    rw [result_inlineWithin_succ] at ha ⊢
    refine h.walkM (fun es fs x hnode hx => ?_) ha
    rw [replaceNode] at hx ⊢
    rw [hnode.ref?_eq]
    cases href : Entries.ref? es with
    | none =>
      simp only [href, Except.ok.injEq] at hx
      exact ⟨_, rfl, hx ▸ hnode⟩
    | some ref =>
      simp only [href] at hx ⊢
      by_cases hseen : ref ∈ chain
      · simp [hseen] at hx
      · rw [if_neg hseen] at hx ⊢
        obtain ⟨-, -, hrest⟩ := bind_eq_ok.mp hx
        obtain ⟨t, ht, hexpanded⟩ := bind_eq_ok.mp hrest
        obtain ⟨u, hu, htu⟩ := hdocument.resolve (mapError_eq_ok.mp ht)
        obtain ⟨b, hb, hab⟩ := ih htu hexpanded
        have hsiblings := noteSiblings_of_textKeys ref hnode.right.texts
        refine ⟨b, bind_eq_ok.mpr ⟨(), hsiblings, ?_⟩, hab⟩
        exact bind_eq_ok.mpr ⟨u, mapError_eq_ok.mpr hu, hb⟩

/-- **If a schema can be inlined, an alike schema of an alike document can**, with an alike
answer. -/
theorem inline (hdocument : Alike document other) (h : Alike v w)
    (ha : (ApiSchema.inline document areas v).result = .ok a) :
    ∃ b, (ApiSchema.inline other areas w).result = .ok b ∧ Alike a b := by
  obtain ⟨b, hb, hab⟩ := hdocument.inlineWithin h ha
  -- The budget is that of the first document, but it sufficed.
  exact ⟨b, inline_eq_ok_iff.mpr (inlines_of_inlineWithin hb), hab⟩

end ApiSchema.Alike
