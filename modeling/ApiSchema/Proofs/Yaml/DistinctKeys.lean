/-
The loader for YAML gives distinct keys.

Building a mapping overwrites the value of a key that is seen again, so no key
stands twice in it.  A value is built from built ones, so the same holds at every
depth, and the induction is the recursion of the builder.
-/
import ApiSchema.Proofs.DistinctKeys
import ApiSchema.Proofs.Result
import ApiSchema.Yaml.Loader

namespace ApiSchema

namespace Yaml

theorem both_eq_ok {α β : Type} {x : Ranked α} {y : Ranked β} {p : α × β} (h : both x y = .ok p) :
    x = .ok p.1 ∧ y = .ok p.2 := by
  rcases x with e | a <;> rcases y with f | b <;> simp [both] at h
  subst h
  exact ⟨rfl, rfl⟩

/-- What is read as a scalar is a value without parts. -/
theorem buildScalar_eq_scalar {round : Nat} {node : Node} {v : Value}
    (h : buildScalar round node = .ok v) : ∃ s, v = .scalar s := by
  have hread (tag : Tag) (hread : (inRound round (node.readScalar tag)).map Value.scalar = .ok v) :
      ∃ s, v = .scalar s := by
    cases hs : inRound round (node.readScalar tag) with
    | error e => simp [hs, Except.map] at hread
    | ok s =>
      rw [hs] at hread
      exact ⟨s, (Except.ok.inj hread).symm⟩
  rw [buildScalar] at h
  split at h
  all_goals first | exact hread _ h | simp [inRound, reject] at h

/-- A collection of pairs is built only where its merges are resolved. -/
theorem unlessMerging_eq_ok {α : Type} {round : Nat} {pairs : List (Node × Node)}
    {result : Ranked α} {a : α} (h : unlessMerging round pairs result = .ok a) :
    result = .ok a := by
  rw [unlessMerging] at h
  split at h
  · simp [inRound, reject] at h
  · exact h

/-- Whatever is built has distinct keys: the value of a node, those of pairs, of tuples and of
items. -/
theorem distinctKeys_build :
    (∀ round node, ∀ v, build round node = .ok v → DistinctKeys v) ∧
      (∀ round pairs, ∀ es, buildPairs round pairs = .ok es → ∀ e ∈ es, DistinctKeys e.2) ∧
      (∀ round items, ∀ vs, buildSingles round items = .ok vs → ∀ v ∈ vs, DistinctKeys v) ∧
      (∀ round node, ∀ v, buildSingle round node = .ok v → DistinctKeys v) ∧
      ∀ round items, ∀ vs, buildItems round items = .ok vs → ∀ v ∈ vs, DistinctKeys v := by
  refine build.mutual_induct _ _ _ _ _ ?sequence ?tuples ?mapping ?set ?enclosing ?scalar
    ?single ?around ?wrong ?noSingles ?singles ?noItems ?items ?noPairs ?pairs
  case sequence | tuples =>
    intro round items ih v h
    rw [build] at h
    obtain ⟨vs, hvs, hv⟩ := bind_eq_ok.mp h
    rw [← Except.ok.inj hv]
    exact .array _ (ih vs hvs)
  case mapping =>
    intro round pairs ih v h
    rw [build] at h
    obtain ⟨es, hes, hv⟩ := bind_eq_ok.mp (unlessMerging_eq_ok h)
    rw [← Except.ok.inj hv]
    -- Pairs may repeat a key, but every value that is left is the value of some pair.
    refine .mapping (Entries.distinct_ofPairs es) fun e he => ?_
    obtain ⟨p, hp, hvalue⟩ := Entries.mem_ofPairs he
    rw [hvalue]
    exact ih es hes p hp
  case set =>
    intro round pairs _ v h
    rw [build] at h
    obtain ⟨es, -, hv⟩ := bind_eq_ok.mp (unlessMerging_eq_ok h)
    rw [← Except.ok.inj hv]
    exact .scalar _
  case enclosing =>
    intro round anchor isMapping v h
    rw [build] at h
    rw [← Except.ok.inj h]
    exact .scalar _
  case scalar =>
    intro round node hseq hpairs hmap hset henclosing v h
    rw [build] at h
    · obtain ⟨s, rfl⟩ := buildScalar_eq_scalar h
      exact .scalar s
    all_goals assumption
  case single =>
    intro round tag key value ihkey ihvalue v h
    rw [buildSingle] at h
    obtain ⟨⟨k, w⟩, hboth, hv⟩ := bind_eq_ok.mp h
    obtain ⟨hk, hw⟩ := both_eq_ok hboth
    rw [← Except.ok.inj hv]
    exact .array _ (List.forall_mem_cons.mpr ⟨ihkey k hk, List.forall_mem_singleton.mpr
      (ihvalue w hw)⟩)
  case around =>
    intro round anchor v h
    rw [buildSingle] at h
    rw [← Except.ok.inj h]
    exact .scalar _
  case wrong =>
    intro node round hsingle hopen v h
    rw [buildSingle] at h
    · simp [inRound, reject] at h
    all_goals assumption
  case noSingles | noItems =>
    intro round vs h
    rw [← Except.ok.inj h]
    simp
  case singles =>
    intro round item items ihitem ihitems vs h
    rw [buildSingles] at h
    obtain ⟨⟨v, vs'⟩, hboth, hvs⟩ := bind_eq_ok.mp h
    obtain ⟨hv, hvs'⟩ := both_eq_ok hboth
    rw [← Except.ok.inj hvs]
    exact List.forall_mem_cons.mpr ⟨ihitem v hv, ihitems vs' hvs'⟩
  case items =>
    intro round item items ihitem ihitems vs h
    rw [buildItems] at h
    obtain ⟨⟨v, vs'⟩, hboth, hvs⟩ := bind_eq_ok.mp h
    obtain ⟨hv, hvs'⟩ := both_eq_ok hboth
    rw [← Except.ok.inj hvs]
    exact List.forall_mem_cons.mpr ⟨ihitem v hv, ihitems vs' hvs'⟩
  case noPairs =>
    intro round es h
    rw [← Except.ok.inj h]
    simp
  case pairs =>
    intro round key value pairs ihvalue ihpairs es h
    rw [buildPairs] at h
    obtain ⟨⟨e, es'⟩, hboth, hes⟩ := bind_eq_ok.mp h
    obtain ⟨he, hes'⟩ := both_eq_ok hboth
    rw [← Except.ok.inj hes]
    exact List.forall_mem_cons.mpr ⟨ihvalue _ (both_eq_ok he).2, ihpairs es' hes'⟩

/-- **The value of a text has distinct keys**, at any depth. -/
theorem distinctKeys_read {text : String} {v : Value} (h : read text = .ok v) : DistinctKeys v := by
  rw [read] at h
  cases hprintable : (unifyBreaks text.toList).find? fun c => !isAllowed c with
  | some c => simp [hprintable, reject, bind, Except.bind] at h
  | none =>
    rw [hprintable] at h
    obtain ⟨node, -, hnode⟩ := bind_eq_ok.mp h
    cases node with
    | none =>
      rw [← Except.ok.inj hnode]
      exact .scalar _
    | some root => exact distinctKeys_build.1 0 root.merged v (mapError_eq_ok.mp hnode)

instance : LawfulLoader where
  distinctKeys h := distinctKeys_read (mapError_eq_ok.mp h)

end Yaml

end ApiSchema
