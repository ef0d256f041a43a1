/-
Inlining reads only what it reaches.

A run looks at the document and at the supported areas in one place: where it
follows a reference that it has reached.  So two documents, each with areas of its
own, in which those references lead to the same values give the same answer.
`AgreesOn` says that they do, and a derivation in one of them is a derivation in
the other, step by step and under the same chains.

What is left is to say which changes keep those targets.  An area only ever
permits, as long as it is a pointer at all, so more areas or another order of them
do no harm.  A change of the document is harmless if no reference that is reached
leads into it or to a place around it.
-/
import ApiSchema.Proofs.Document.Components
import ApiSchema.Proofs.Reference.Expansion

namespace ApiSchema

open Entries (subschemas)

variable {document other v w t : Value} {areas others chain : List String} {ref : String}

/-- The references that the schema reaches lead to the same values in the other document, under
the other areas. -/
def AgreesOn (document : Value) (areas : List String) (v other : Value) (others : List String) :
    Prop :=
  ∀ ref, Reachable document areas v ref → ∀ t, resolve document areas (.reference ref) = .ok t →
    resolve other others (.reference ref) = .ok t

/-- **A derivation is one in every document that agrees on what is reached.** -/
theorem Inlines.transfer (h : Inlines document areas chain v w)
    (hagree : AgreesOn document areas v other others) : Inlines other others chain v w := by
  induction h with
  | atom hv => exact .atom hv
  | node g href _ ih =>
    exact .node g href fun c hc => ih c hc fun ref hreached =>
      hagree ref (.of_subschema hc hreached)
  | @reference chain es ref t w g href _ fresh siblings target _ ih ihtarget =>
    have hreached : Reachable document areas (.mapping es) ref := .of_reference href
    refine .reference g href (fun c hc => ?_) fresh siblings (hagree ref hreached t target) ?_
    · exact ih c hc fun next hnext => hagree next (.of_subschema hc hnext)
    · exact ihtarget fun next hnext => hagree next (hreached.of_target target hnext)

/-! ### What a target depends on -/

theorem localPointer_eq_ok_iff {text : String} {p : Pointer} :
    localPointer text = .ok p ↔ Pointer.parse? text = some p := by
  rw [localPointer]
  cases Pointer.parse? text <;> simp

/-- A reference is supported if all areas are pointers and it leads below one of them. -/
theorem supportedPointer_eq_ok_iff {p : Pointer} :
    supportedPointer areas ref = .ok p ↔
      Pointer.parse? ref = some p ∧ (∀ area ∈ areas, ∃ q, Pointer.parse? area = some q) ∧
        ∃ area ∈ areas, ∃ q, Pointer.parse? area = some q ∧ p.isBelow q = true := by
  rw [supportedPointer, bind_eq_ok]
  constructor
  · rintro ⟨p', hp, hrest⟩
    obtain ⟨supported, hsupported, hbelow⟩ := bind_eq_ok.mp hrest
    have hareas (area : String) (harea : area ∈ areas) : ∃ q, Pointer.parse? area = some q := by
      obtain ⟨q, hq⟩ := exists_ok_of_mapM hsupported area harea
      exact ⟨q, localPointer_eq_ok_iff.mp hq⟩
    split at hbelow
    · next hany =>
      obtain rfl := Except.ok.inj hbelow
      obtain ⟨q, hq, hqbelow⟩ := List.any_eq_true.mp hany
      obtain ⟨area, harea, hparse⟩ := exists_mem_of_mapM hsupported q hq
      exact ⟨localPointer_eq_ok_iff.mp hp, hareas, area, harea, q,
        localPointer_eq_ok_iff.mp hparse, hqbelow⟩
    · simp [throw, throwThe, MonadExceptOf.throw] at hbelow
  · rintro ⟨hp, hareas, area, harea, q, hq, hbelow⟩
    have hlocal (x : String) (hx : x ∈ areas) : ∃ y, localPointer x = .ok y := by
      obtain ⟨y, hy⟩ := hareas x hx
      exact ⟨y, localPointer_eq_ok_iff.mpr hy⟩
    obtain ⟨supported, hsupported⟩ := mapM_eq_ok_of_forall hlocal
    have hmem : q ∈ supported := mem_of_mapM hsupported harea (localPointer_eq_ok_iff.mpr hq)
    have hany : supported.any p.isBelow = true := List.any_eq_true.mpr ⟨q, hmem, hbelow⟩
    refine ⟨p, localPointer_eq_ok_iff.mpr hp, bind_eq_ok.mpr ⟨supported, hsupported, ?_⟩⟩
    rw [if_pos hany]
    rfl

/-- A reference leads to what stands at the place of its pointer. -/
theorem resolve_eq_ok_iff : resolve document areas (.reference ref) = .ok t ↔
    ∃ p, supportedPointer areas ref = .ok p ∧ document.at? p.segments = some t := by
  rw [resolve_reference, resolveText, bind_eq_ok]
  refine exists_congr fun p => and_congr_right fun _ => ?_
  rw [← follow_eq document [], toOption_eq_some_iff]
  cases follow document [] p.segments with
  | error place => simp [throw, throwThe, MonadExceptOf.throw]
  | ok v => simp [pure, Except.pure]

/-- More areas that are pointers, in any order, support what was supported. -/
theorem supportedPointer_of_subset {p : Pointer} (hsub : areas ⊆ others)
    (hvalid : ∀ area ∈ others, area ∈ areas ∨ ∃ q, Pointer.parse? area = some q)
    (h : supportedPointer areas ref = .ok p) : supportedPointer others ref = .ok p := by
  obtain ⟨hp, hareas, area, harea, hbelow⟩ := supportedPointer_eq_ok_iff.mp h
  refine supportedPointer_eq_ok_iff.mpr ⟨hp, fun x hx => ?_, area, hsub harea, hbelow⟩
  rcases hvalid x hx with hold | hnew
  · exact hareas x hold
  · exact hnew

/-! ### Changes that do not matter -/

theorem AgreesOn.of_areas (hsub : areas ⊆ others)
    (hvalid : ∀ area ∈ others, area ∈ areas ∨ ∃ q, Pointer.parse? area = some q) :
    AgreesOn document areas v document others := by
  intro ref _ t ht
  obtain ⟨p, hp, hplace⟩ := resolve_eq_ok_iff.mp ht
  exact resolve_eq_ok_iff.mpr ⟨p, supportedPointer_of_subset hsub hvalid hp, hplace⟩

theorem AgreesOn.of_setSchemas {root schemas new : Entries} {changed : String → Prop}
    (hschemas : Document.componentSchemas? root = some schemas)
    (hnew : ∀ name, ¬ changed name → Entries.get? new name = Entries.get? schemas name)
    (hapart : ∀ ref, Reachable (.mapping root) areas v ref →
      ∀ p, Pointer.parse? ref = some p → Document.Apart changed p.segments) :
    AgreesOn (.mapping root) areas v (.mapping (Document.setSchemas root new)) areas := by
  intro ref hreached t ht
  obtain ⟨p, hp, hplace⟩ := resolve_eq_ok_iff.mp ht
  have hparse := (supportedPointer_eq_ok_iff.mp hp).1
  rw [← Document.at?_setSchemas hschemas hnew (hapart ref hreached p hparse)] at hplace
  exact resolve_eq_ok_iff.mpr ⟨p, hp, hplace⟩

/-- **Inlining depends only on what the schema reaches.**  It gives the same answer
in every document and under all areas where the references that are reached lead
to the same values.  So it does with further areas that are pointers and with the
areas in another order, and so it does whatever becomes of component schemas that
nothing reached leads into. -/
theorem inline_reads_reached (h : (inline document areas v).result = .ok w) :
    (∀ other others, AgreesOn document areas v other others →
      (inline other others v).result = .ok w) ∧
    (∀ others, areas ⊆ others →
      (∀ area ∈ others, area ∈ areas ∨ ∃ q, Pointer.parse? area = some q) →
      (inline document others v).result = .ok w) ∧
    ∀ (root schemas new : Entries) (changed : String → Prop), document = .mapping root →
      Document.componentSchemas? root = some schemas →
      (∀ name, ¬ changed name → Entries.get? new name = Entries.get? schemas name) →
      (∀ ref, Reachable document areas v ref → ∀ p, Pointer.parse? ref = some p →
        Document.Apart changed p.segments) →
      (inline (.mapping (Document.setSchemas root new)) areas v).result = .ok w := by
  have hinlines := inline_eq_ok_iff.mp h
  have htransfer (other : Value) (others : List String)
      (hagree : AgreesOn document areas v other others) :
      (inline other others v).result = .ok w :=
    inline_eq_ok_iff.mpr (hinlines.transfer hagree)
  refine ⟨htransfer, fun others hsub hvalid => ?_, ?_⟩
  · exact htransfer document others (.of_areas hsub hvalid)
  · rintro root schemas new changed rfl hschemas hnew hapart
    exact htransfer _ areas (.of_setSchemas hschemas hnew hapart)

namespace Sharing

/-- The component schemas of the document, with a pair that is broken. -/
def brokenPair : Entries := [(.str "pair", .null), (.str "leaf", leaf)]

theorem eq_of_reachable_leafReference {ref : String}
    (h : Reachable root defaultAreas leafReference ref) : ref = "#/components/schemas/leaf" := by
  obtain ⟨first, hfirst, hpath⟩ := h
  have hreferences : leafReference.references = ["#/components/schemas/leaf"] := rfl
  obtain rfl : first = "#/components/schemas/leaf" := by simpa [hreferences] using hfirst
  rcases hpath.cases_head with rfl | ⟨next, ⟨t, ht, hnext⟩, -⟩
  · rfl
  · obtain rfl : leaf = t := Except.ok.inj ht
    have hnone : leaf.references = [] := rfl
    simp [hnone] at hnext

end Sharing

/-- The leaf reaches nothing but itself, so its answer is the same with one more area and with a
pair that is broken. -/
theorem inline_reads_reached_leaf :
    (inline Sharing.root defaultAreas Sharing.leafReference).result = .ok Sharing.leaf ∧
      (inline Sharing.root ("#/definitions" :: defaultAreas) Sharing.leafReference).result =
        .ok Sharing.leaf ∧
      ∃ root, Sharing.root = .mapping root ∧
        (inline (.mapping (Document.setSchemas root Sharing.brokenPair)) defaultAreas
          Sharing.leafReference).result = .ok Sharing.leaf := by
  have hrun : (inline Sharing.root defaultAreas Sharing.leafReference).result =
      .ok Sharing.leaf := rfl
  obtain ⟨-, hareas, hdocument⟩ := inline_reads_reached hrun
  refine ⟨hrun, hareas _ (List.subset_cons_self _ _) ?_, _, rfl, ?_⟩
  · intro area harea
    rcases List.mem_cons.mp harea with rfl | hold
    · exact .inr ⟨_, rfl⟩
    · exact .inl hold
  · refine hdocument _ _ _ (fun name => name = "pair") rfl rfl ?_ ?_
    · intro name hname
      simp [Sharing.brokenPair, Entries.get?, Ne.symm hname]
    · intro ref href p hp
      rw [Sharing.eq_of_reachable_leafReference href] at hp
      obtain rfl := Option.some.inj hp
      refine ⟨by decide, ?_⟩
      rintro _ rfl
      decide

end ApiSchema
