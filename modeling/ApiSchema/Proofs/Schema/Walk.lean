/-
What a walk makes of a schema.

`walkM` prepares one action per slot and runs the actions in the order of
visiting, because its recursion has to follow the entries as they are written.
None of that is needed to say what comes out.  In `Except` a walk over the slots
of a node runs over `subschemas`, one after the other, and if all of them succeed
the node is the old one with each schema replaced by its own answer:
`walkSubschemas_eq_mapM`.  So a walk succeeds at a node if it succeeds at all
schemas below and then at the node, and a failure of a walk is a failure of the
mapper at some node.

A walk with a log gives the same result as the walk without it.
-/
import ApiSchema.Proofs.Result
import ApiSchema.Proofs.Schema.Replace
import ApiSchema.Schema.Walk

namespace ApiSchema

/-! ### One slot -/

/-- Runs a computation over the members. -/
def Content.mapM {m : Type → Type} [Monad m] {α β : Type} (f : α → m β) :
    Content α → m (Content β)
  | .fields es => do return .fields (← es.mapM fun e => do return (e.1, ← f e.2))
  | .one a => do return .one (← f a)
  | .alternatives kind as => do return .alternatives kind (← as.mapM f)

theorem Content.mapM_congr {m : Type → Type} [Monad m] [LawfulMonad m] {α β : Type} {f g : α → m β}
    {c : Content α} (h : ∀ a ∈ c.members, f a = g a) : c.mapM f = c.mapM g := by
  cases c with
  | fields es =>
    have hes : es.mapM (fun e => do return (e.1, ← f e.2)) =
        es.mapM fun e => do return (e.1, ← g e.2) :=
      ApiSchema.mapM_congr fun e he => by rw [h e.2 (List.mem_map_of_mem he)]
    rw [mapM, mapM, hes]
  | one a => rw [mapM, mapM, h a (by simp [members])]
  | alternatives kind as =>
    have has : as.mapM f = as.mapM g := ApiSchema.mapM_congr h
    rw [mapM, mapM, has]

namespace Value

section Lawful

variable {m : Type → Type} [Monad m] [LawfulMonad m] (relay : Relay m) (f : Entries → m Value)

theorem walkFields_eq (es : List (Scalar × Value)) :
    walkFields relay f es = es.mapM fun e => do return (e.1, ← walkWith relay f e.2) := by
  induction es with
  | nil => simp [walkFields]
  | cons e rest ih => simp [walkFields, ih]

theorem walkItems_eq (vs : List Value) :
    walkItems relay f vs = vs.mapM fun v => relay.pass (walkWith relay f v) := by
  induction vs with
  | nil => simp [walkItems]
  | cons v rest ih => simp [walkItems, ih]

theorem slotAction?_eq (slot : Slot) (v : Value) :
    slotAction? relay f slot v = (slot.content? v).map fun c => do
      return (← c.mapM fun v => relay.via slot (walkWith relay f v)).toValue := by
  cases v with
  | scalar s => rfl
  | array kind vs =>
    cases slot <;>
      simp [slotAction?, Slot.content?, Content.mapM, Content.toValue, walkItems_eq, Relay.via,
        Slot.isCombinator]
  | mapping es =>
    cases slot <;>
      simp [slotAction?, Slot.content?, Content.mapM, Content.toValue, walkFields_eq, walkWith,
        Relay.via, Slot.isCombinator]

theorem walkSubschemasWith_eq_foldlM (es : Entries) :
    walkSubschemasWith relay f es = Slot.all.foldlM
      (fun acc slot => match Entries.content? es slot with
        | some c => do
          let c' ← c.mapM fun v => relay.via slot (walkWith relay f v)
          return Entries.set acc slot.keyword c'.toValue
        | none => pure acc)
      es := by
  rw [walkSubschemasWith_eq]
  congr 1
  funext acc slot
  rw [Entries.content?]
  cases Entries.get? es slot.keyword with
  | none => rfl
  | some v =>
    rw [Option.bind_some, Option.bind_some, slotAction?_eq]
    cases slot.content? v with
    | none => rfl
    | some c => simp

theorem walkSubschemas_eq_foldlM (es : Entries) :
    walkSubschemas f es = Slot.all.foldlM
      (fun acc slot => match Entries.content? es slot with
        | some c => do return Entries.set acc slot.keyword (← c.mapM (walkM f)).toValue
        | none => pure acc)
      es := by
  rw [walkSubschemas, walkSubschemasWith_eq_foldlM]
  simp only [Relay.via_plain]
  rfl

end Lawful

theorem walkWith_atom {m : Type → Type} [Monad m] (relay : Relay m) (f : Entries → m Value)
    {v : Value} (h : v.isMapping = false) : walkWith relay f v = pure v := by
  cases v with
  | scalar s => rfl
  | array kind vs => rfl
  | mapping es => simp [isMapping] at h

theorem walkM_atom {m : Type → Type} [Monad m] (f : Entries → m Value) {v : Value}
    (h : v.isMapping = false) : walkM f v = pure v := walkWith_atom .plain f h

end Value

/-! ### Walks that may fail -/

variable {ε : Type}

theorem Content.mapM_eq_mapM_members (f : Value → Except ε Value) (c : Content Value) :
    c.mapM f = (do let _ ← c.members.mapM f; return c.map (answer f)) := by
  cases c with
  | fields es =>
    have hfields : es.mapM (fun e => do return (e.1, ← f e.2)) =
        (do let _ ← (es.map (·.2)).mapM f; return es.map fun e => (e.1, answer f e.2)) := by
      induction es with
      | nil => rfl
      | cons e es ih =>
        rw [List.mapM_cons, ih, List.map_cons, List.mapM_cons]
        cases he : f e.2 with
        | error cause => rfl
        | ok w =>
          cases (es.map (·.2)).mapM f with
          | error cause => rfl
          | ok ws => simp [bind, Except.bind, pure, Except.pure, answer_eq he]
    rw [mapM, hfields]
    simp only [members, map, bind_assoc, pure_bind]
  | one v =>
    cases hv : f v with
    | error cause => simp [mapM, members, hv, bind, Except.bind]
    | ok w => simp [mapM, members, map, hv, bind, Except.bind, pure, Except.pure, answer_eq hv]
  | alternatives kind vs =>
    rw [mapM, mapM_eq_map_answer]
    simp only [members, map, bind_assoc, pure_bind]

namespace Value

open Entries (subschemas mapSchemas)

/-- **A walk over the slots of a node runs over its subschemas, in order, and
replaces each by its own answer.** -/
theorem walkSubschemas_eq_mapM (f : Entries → Except ε Value) (es : Entries) :
    walkSubschemas f es =
      (do let _ ← (subschemas es).mapM (walkM f); return mapSchemas (answer (walkM f)) es) := by
  have run (slots : List Slot) : ∀ acc, slots.foldlM
      (fun acc slot => match Entries.content? es slot with
        | some c => do return Entries.set acc slot.keyword (← c.mapM (walkM f)).toValue
        | none => pure acc)
      acc = (do
        let _ ← (slots.flatMap fun slot =>
          ((Entries.content? es slot).map Content.members).getD []).mapM (walkM f)
        return Entries.setSlots
          (fun slot => (Entries.content? es slot).map fun c => (c.map (answer (walkM f))).toValue)
          slots acc) := by
    induction slots with
    | nil => intro acc; rfl
    | cons slot slots ih =>
      intro acc
      rw [List.foldlM_cons, List.flatMap_cons, List.mapM_append, Entries.setSlots_cons]
      cases Entries.content? es slot with
      | none =>
        simp only [Option.map_none, Option.getD_none, List.mapM_nil, pure_bind, ih, bind_assoc]
      | some c =>
        simp only [Option.map_some, Option.getD_some]
        rw [Content.mapM_eq_mapM_members]
        simp only [bind_assoc, pure_bind, ih]
  rw [walkSubschemas_eq_foldlM, run]
  rfl

variable {f : Entries → Except ε Value} {es : Entries} {v w : Value} {cause : ε}

/-- A walk whose schemas have their answers is the call for the node. -/
theorem walkM_mapping_of_ok {g : Value → Value} (hg : ∀ c ∈ subschemas es, walkM f c = .ok (g c)) :
    walkM f (.mapping es) = f (mapSchemas g es) := by
  obtain ⟨ws, hws⟩ := mapM_eq_ok_of_forall fun c hc => ⟨g c, hg c hc⟩
  rw [walkM_mapping, walkSubschemas_eq_mapM, hws,
    Entries.mapSchemas_congr fun c hc => answer_eq (hg c hc)]
  rfl

/-- A walk answers for a node what the mapper does, once every schema of the node
has its answer. -/
theorem walkM_mapping_eq_ok :
    walkM f (.mapping es) = .ok w ↔
      ∃ g : Value → Value, (∀ c ∈ subschemas es, walkM f c = .ok (g c)) ∧
        f (mapSchemas g es) = .ok w := by
  constructor
  · intro h
    rw [walkM_mapping, walkSubschemas_eq_mapM, bind_assoc] at h
    simp only [pure_bind] at h
    obtain ⟨ws, hws, hw⟩ := bind_eq_ok.mp h
    refine ⟨answer (walkM f), fun c hc => ?_, hw⟩
    obtain ⟨b, hb⟩ := exists_ok_of_mapM hws c hc
    rw [hb, answer_eq hb]
  · rintro ⟨g, hg, hw⟩
    rwa [walkM_mapping_of_ok hg]

/-- A walk fails as the first schema does that fails. -/
theorem walkM_mapping_of_error {before after : List Value} {c : Value}
    (hsplit : subschemas es = before ++ c :: after)
    (hbefore : ∀ x ∈ before, ∃ w, walkM f x = .ok w) (hc : walkM f c = .error cause) :
    walkM f (.mapping es) = .error cause := by
  have hfails : (subschemas es).mapM (walkM f) = .error cause :=
    mapM_eq_error_iff.mpr ⟨before, c, after, hsplit, hbefore, hc⟩
  rw [walkM_mapping, walkSubschemas_eq_mapM, hfails]
  rfl

/-- A walk fails for a node at the first schema of it that fails, or else at the node itself. -/
theorem walkM_mapping_eq_error :
    walkM f (.mapping es) = .error cause ↔
      (∃ before c after, subschemas es = before ++ c :: after ∧
        (∀ x ∈ before, ∃ w, walkM f x = .ok w) ∧ walkM f c = .error cause) ∨
      ∃ g : Value → Value, (∀ c ∈ subschemas es, walkM f c = .ok (g c)) ∧
        f (mapSchemas g es) = .error cause := by
  constructor
  · intro h
    rw [walkM_mapping, walkSubschemas_eq_mapM, bind_assoc] at h
    simp only [pure_bind] at h
    rcases bind_eq_error.mp h with hbelow | ⟨ws, hws, hnode⟩
    · exact .inl (mapM_eq_error_iff.mp hbelow)
    · refine .inr ⟨answer (walkM f), fun c hc => ?_, hnode⟩
      obtain ⟨w, hw⟩ := exists_ok_of_mapM hws c hc
      rw [hw, answer_eq hw]
  · rintro (⟨before, c, after, hsplit, hbefore, hc⟩ | ⟨g, hg, hnode⟩)
    · exact walkM_mapping_of_error hsplit hbefore hc
    · rwa [walkM_mapping_of_ok hg]

/-- A walk fails only where the mapper does. -/
theorem exists_node_of_walkM_error (h : walkM f v = .error cause) :
    ∃ node ∈ v.nodes, ∃ g : Value → Value, f (mapSchemas g node) = .error cause := by
  induction v using schemaRec with
  | atom v hv => simp [walkM_atom f hv, pure, Except.pure] at h
  | node es ih =>
    rw [walkM_mapping, walkSubschemas_eq_mapM, bind_assoc] at h
    simp only [pure_bind] at h
    rcases bind_eq_error.mp h with hbelow | ⟨ws, -, hnode⟩
    · obtain ⟨c, hc, hfail⟩ := exists_error_of_mapM hbelow
      obtain ⟨node, hmem, g, hg⟩ := ih c hc hfail
      exact ⟨node, mem_nodes_mapping.mpr (.inl ⟨c, hc, hmem⟩), g, hg⟩
    · exact ⟨es, mem_nodes_mapping.mpr (.inr rfl), _, hnode⟩

theorem isMapping_of_walkM (hf : ∀ es w, f es = .ok w → w.isMapping = true)
    (h : walkM f v = .ok w) (hv : v.isMapping = true) : w.isMapping = true := by
  cases v with
  | mapping es =>
    obtain ⟨g, -, hw⟩ := walkM_mapping_eq_ok.mp h
    exact hf _ w hw
  | _ => simp [isMapping] at hv

/-- **A walk fails as the first node does that fails**, if a node fails for what it is and not for
what its schemas have given way to. -/
theorem error?_walkM {fails : Entries → Option ε}
    (hf : ∀ es w, f es = .ok w → w.isMapping = true)
    (hfails : ∀ es (g : Value → Value),
      (∀ c ∈ subschemas es, c.isMapping = true → (g c).isMapping = true) →
      error? (f (mapSchemas g es)) = fails es) (v : Value) :
    error? (walkM f v) = v.nodes.findSome? fails := by
  induction v using schemaRec with
  | atom v hv => rw [walkM_atom f hv, nodes_atom hv]; rfl
  | node es ih =>
    have hbelow : error? ((subschemas es).mapM (walkM f)) =
        ((subschemas es).flatMap nodes).findSome? fails := by
      rw [error?_mapM]
      exact findSome?_flatMap ih
    rw [walkM_mapping, walkSubschemas_eq_mapM, bind_assoc, nodes_mapping, List.findSome?_append,
      List.findSome?_singleton, ← hbelow]
    simp only [pure_bind]
    rw [error?_seq]
    cases hfirst : error? ((subschemas es).mapM (walkM f)) with
    | some e => rfl
    | none =>
      -- The node itself is looked at only if all schemas in it have passed.
      obtain ⟨ws, hws⟩ := error?_eq_none_iff.mp hfirst
      have hnode : error? (f (mapSchemas (answer (walkM f)) es)) = fails es := by
        refine hfails es _ fun c hc hmapping => ?_
        obtain ⟨w, hw⟩ := exists_ok_of_mapM hws c hc
        rw [answer_eq hw]
        exact isMapping_of_walkM hf hw hmapping
      rw [hnode]

end Value

/-! ### Walks with a log -/

namespace Traced

theorem result_content (f : Value → Traced ε Value) (g : Value → Except ε Value)
    (c : Content Value) (h : ∀ v ∈ c.members, (f v).result = g v) :
    (c.mapM f).result = c.mapM g := by
  cases c with
  | fields es =>
    simp only [Content.mapM, result_bind, result_mapM, result_pure]
    have hes : es.mapM (fun e => do return (e.1, ← (f e.2).result)) =
        es.mapM fun e => do return (e.1, ← g e.2) :=
      mapM_congr fun e he => by rw [h e.2 (List.mem_map_of_mem he)]
    exact congrArg (· >>= fun fs => pure (Content.fields fs)) hes
  | one v =>
    simp only [Content.mapM, result_bind, result_pure]
    rw [h v (by simp [Content.members])]
    rfl
  | alternatives kind vs =>
    simp only [Content.mapM, result_bind, result_mapM, result_pure]
    have hvs : vs.mapM (fun v => (f v).result) = vs.mapM g := mapM_congr h
    rw [hvs]
    rfl

/-- A walk with a log gives the result of the walk without it. -/
theorem result_walkM (f : Entries → Traced ε Value) (v : Value) :
    (v.walkM f).result = v.walkM fun es => (f es).result := by
  induction v using Value.schemaRec with
  | atom v hv => rw [Value.walkM_atom _ hv, Value.walkM_atom _ hv]; rfl
  | node es ih =>
    rw [Value.walkM_mapping, Value.walkM_mapping, result_bind, Value.walkSubschemas_eq_foldlM,
      Value.walkSubschemas_eq_foldlM, result_foldlM]
    congr 2
    funext acc slot
    cases hc : Entries.content? es slot with
    | none => rfl
    | some c =>
      have hmem : ∀ m ∈ c.members, (m.walkM f).result = m.walkM fun es => (f es).result :=
        fun m hm => ih m (Entries.mem_subschemas.mpr ⟨slot, c, hc, hm⟩)
      simp only [result_bind, result_pure, result_content _ _ c hmem]
      rfl

theorem result_walkSubschemas (f : Entries → Traced ε Value) (es : Entries) :
    (Value.walkSubschemas f es).result = Value.walkSubschemas (fun es => (f es).result) es := by
  rw [Value.walkSubschemas_eq_foldlM, Value.walkSubschemas_eq_foldlM, result_foldlM]
  congr 1
  funext acc slot
  cases Entries.content? es slot with
  | none => rfl
  | some c =>
    simp only [result_bind, result_pure, result_content _ _ c fun v _ => result_walkM f v]
    rfl

/-- Walks by mappers that agree on the nodes of a schema, whatever the schemas in these have given
way to, are the same walk, with the same log. -/
theorem walkM_congr {f g : Entries → Traced ε Value} {v : Value}
    (h : ∀ node ∈ v.nodes, ∀ k, f (Entries.mapSchemas k node) = g (Entries.mapSchemas k node)) :
    v.walkM f = v.walkM g := by
  induction v using Value.schemaRec with
  | atom v hv => rw [Value.walkM_atom _ hv, Value.walkM_atom _ hv]
  | node es ih =>
    have hbelow (c : Value) (hc : c ∈ Entries.subschemas es) : c.walkM f = c.walkM g :=
      ih c hc fun node hnode => h node (Value.mem_nodes_mapping.mpr (.inl ⟨c, hc, hnode⟩))
    have hsame : Value.walkSubschemas f es = Value.walkSubschemas g es := by
      rw [Value.walkSubschemas_eq_foldlM, Value.walkSubschemas_eq_foldlM]
      congr 1
      funext acc slot
      cases hc : Entries.content? es slot with
      | none => rfl
      | some c =>
        have hmembers : c.mapM (Value.walkM f) = c.mapM (Value.walkM g) :=
          Content.mapM_congr fun v hv => hbelow v (Entries.mem_subschemas.mpr ⟨slot, c, hc, hv⟩)
        simp only [hmembers]
    rw [Value.walkM_mapping, Value.walkM_mapping, hsame]
    -- The mapper is given the node with other schemas, and such nodes alone.
    refine bind_congr_of_ok fun es' hes' => ?_
    rw [result_walkSubschemas, Value.walkSubschemas_eq_mapM] at hes'
    obtain ⟨-, -, hreplaced⟩ := bind_eq_ok.mp hes'
    rw [← Except.ok.inj hreplaced]
    exact h es (Value.mem_nodes_mapping.mpr (.inr rfl)) _

end Traced

end ApiSchema
