/-
What a circular reference is reported with.

A run that fails does so at one call that it makes, and there at the node in front of
it (`IsRun.exists_failsAt`).  So what is to be known of an error is what holds of every
call of a run.  The references that are being expanded follow each other in the graph:
each was met in the target of the one before it, and the first one in the schema.  A
sibling that is done leaves nothing on the chain, and the references of the value at
hand continue it.  A circular reference is one that continues the chain and is on it.
-/
import ApiSchema.Proofs.Reference.Acyclic
import ApiSchema.Proofs.Reference.Termination
import Mathlib.Data.List.Chain

namespace ApiSchema

open Relation (ReflTransGen)

variable {document s v : Value} {areas chain refs : List String} {ref next : String}
  {call inner : Call} {failure : Failure ReferenceError}

/-! ### The call that fails -/

/-- The reference at the node of the call is the reason of the failure. -/
inductive Call.FailsAt (document : Value) (areas : List String) :
    Call → Failure ReferenceError → Prop
  /-- It is being expanded. -/
  | circular {chain : List String} {es : Entries} {ref : String}
      (href : Entries.ref? es = some ref) (hmem : ref ∈ chain) :
      FailsAt document areas ⟨chain, .mapping es⟩ (.error (.circular (chain ++ [ref])))
  /-- The keys beside it cannot be sorted. -/
  | unsorted {chain : List String} {es : Entries} {ref : String}
      (href : Entries.ref? es = some ref) (keys : siblingKeys es = .error .unorderedKeys) :
      FailsAt document areas ⟨chain, .mapping es⟩ (.fault .unorderedKeys)
  /-- It does not resolve. -/
  | unresolved {chain : List String} {es : Entries} {ref : String} {cause : ReferenceError}
      (href : Entries.ref? es = some ref)
      (fails : resolve document areas (.reference ref) = .error cause) :
      FailsAt document areas ⟨chain, .mapping es⟩ (.error cause)

/-- **A run fails at a call that it makes.**  The induction goes along the calls: either the walk
ends at a reference of the value at hand, or the run for the target of one fails. -/
theorem IsRun.exists_failsAt {run : List String → Value → Traced (Failure ReferenceError) Value}
    (h : IsRun document areas run) (hfail : (run chain v).result = .error failure) :
    ∃ call, ReflTransGen (Call.Makes document areas) ⟨chain, v⟩ call ∧
      Call.FailsAt document areas call failure := by
  revert hfail
  have hwf := (Call.wellFounded_makes document areas).transGen
  refine hwf.induction (C := fun call => (run call.chain call.value).result = .error failure →
    ∃ last, ReflTransGen (Call.Makes document areas) call last ∧
      Call.FailsAt document areas last failure) ⟨chain, v⟩ fun ⟨chain, v⟩ ih hfail => ?_
  dsimp only at hfail
  rw [h] at hfail
  obtain ⟨node, hnode, hfails⟩ := exists_nodeFails hfail
  have hreaches : ReflTransGen (Call.Makes document areas) ⟨chain, v⟩ ⟨chain, .mapping node⟩ :=
    Call.reaches_node hnode
  cases hfails with
  | circular href hmem hfailure =>
    obtain rfl := hfailure
    exact ⟨_, hreaches, .circular href hmem⟩
  | unsorted href hsiblings =>
    obtain ⟨hkeys, rfl⟩ := siblingKeys_of_noteSiblings hsiblings
    exact ⟨_, hreaches, .unsorted href hkeys⟩
  | unresolved href hresolve hfailure =>
    obtain rfl := hfailure
    exact ⟨_, hreaches, .unresolved href hresolve⟩
  | target href fresh target hinner =>
    have hinside := Relation.TransGen.tail' hreaches (.expand href fresh target)
    obtain ⟨last, hlast, hfailsAt⟩ := ih _ (Relation.transGen_swap.mpr hinside) hinner
    exact ⟨last, hinside.to_reflTransGen.trans hlast, hfailsAt⟩

/-! ### The chain as a way through the graph -/

/-- The references lead one to the next, from one of the schema on. -/
structure IsWay (document : Value) (areas : List String) (s : Value) (refs : List String) :
    Prop where
  starts : ∀ first ∈ refs.head?, first ∈ s.references
  leads : refs.IsChain (LeadsTo document areas)

theorem IsWay.concat (h : IsWay document areas s (refs ++ [ref]))
    (hstep : LeadsTo document areas ref next) :
    IsWay document areas s (refs ++ [ref] ++ [next]) := by
  constructor
  · intro first hfirst
    refine h.starts first ?_
    cases refs <;> simpa using hfirst
  · refine h.leads.append (List.isChain_singleton next) fun last hlast other hother => ?_
    obtain rfl : ref = last := by simpa using hlast
    obtain rfl : next = other := by simpa using hother
    exact hstep

/-- What holds of every call of a run that starts at the schema: the chain resolves, and it is
continued by every reference of the value at hand. -/
structure Call.Follows (document : Value) (areas : List String) (s : Value) (call : Call) :
    Prop where
  way : ∀ ref ∈ call.value.references, IsWay document areas s (call.chain ++ [ref])
  resolves : ∀ ref ∈ call.chain, ∃ t, resolve document areas (.reference ref) = .ok t

namespace Call.Follows

theorem start (document : Value) (areas : List String) (s : Value) :
    Follows document areas s ⟨[], s⟩ := by
  refine ⟨fun ref href => ⟨?_, List.isChain_singleton ref⟩, by simp⟩
  intro first hfirst
  obtain rfl : ref = first := by simpa using hfirst
  exact href

/-- One call keeps the way. -/
theorem step (h : Follows document areas s call) (hmakes : Makes document areas call inner) :
    Follows document areas s inner := by
  cases hmakes with
  | walk hc =>
    refine ⟨fun ref href => h.way ref ?_, h.resolves⟩
    exact Value.mem_references_mapping.mpr (.inl ⟨_, hc, href⟩)
  | @expand chain es ref t href fresh target =>
    have hway : IsWay document areas s (chain ++ [ref]) :=
      h.way ref (Value.mem_references_mapping.mpr (.inr href))
    refine ⟨fun next hnext => hway.concat ⟨t, target, hnext⟩, fun outer houter => ?_⟩
    rcases List.mem_append.mp houter with hchain | hlast
    · exact h.resolves outer hchain
    · obtain rfl := List.mem_singleton.mp hlast
      exact ⟨t, target⟩

/-- A whole run keeps the way. -/
theorem run (h : Follows document areas s call)
    (hrun : ReflTransGen (Makes document areas) call inner) : Follows document areas s inner := by
  induction hrun with
  | refl => exact h
  | tail _ hmakes ih => exact ih.step hmakes

end Call.Follows

/-! ### Circuits -/

/-- The references go round in the graph: from the schema they lead on, through different targets,
until the last one is met again. -/
structure Circuit (document : Value) (areas : List String) (s : Value) (way : List String)
    (last : String) : Prop where
  leads : IsWay document areas s (way ++ [last])
  resolves : ∀ ref ∈ way, ∃ t, resolve document areas (.reference ref) = .ok t
  distinct : way.Nodup
  closes : last ∈ way

/-- **A circular reference is reported with a circuit of the graph.**  The message lists the
references of the circuit in their order. -/
theorem circuit_of_inline {cause : ReferenceError}
    (h : (inline document areas s).result = .error (.error cause))
    (hkind : cause.kind = .circular) :
    ∃ way last, cause = .circular (way ++ [last]) ∧
      cause.message = "Circular $ref cannot be inlined: " ++ " -> ".intercalate (way ++ [last]) ∧
      Circuit document areas s way last := by
  rw [inline_eq_sufficientRun] at h
  obtain ⟨call, hcall, hfails⟩ := (isRun_sufficientRun document areas).exists_failsAt h
  have hfollows := (Call.Follows.start document areas s).run hcall
  have hstart : Call.Within (s.refTexts ++ document.refTexts) ⟨[], s⟩ :=
    ⟨List.nodup_nil, List.nil_subset _, List.subset_append_left _ _⟩
  have hwithin := hstart.run (List.subset_append_right _ _) hcall
  cases hfails with
  | @circular chain es ref href hmem =>
    have hway := hfollows.way ref (Value.mem_references_mapping.mpr (.inr href))
    exact ⟨chain, ref, rfl, rfl, hway, hfollows.resolves, hwithin.distinct, hmem⟩
  | unresolved href hresolve =>
    rcases kind_of_resolve_error hresolve with hother | hother
    · simp [hother] at hkind
    · simp [hother] at hkind

namespace Detour

/-- A document in which a schema leads into a circle of two others. -/
def root : Value :=
  .mapping [(.str "components", .mapping [(.str "schemas", .mapping [
    (.str "leaf", .mapping [(.str "type", .str "string")]),
    (.str "way", .mapping [(.str "properties", .mapping [
      (.str "first", .reference "#/components/schemas/leaf"),
      (.str "second", .reference "#/components/schemas/a")])]),
    (.str "a", .mapping [(.str "items", .reference "#/components/schemas/b")]),
    (.str "b", .mapping [(.str "allOf", .array .tuple [.reference "#/components/schemas/a"])])])])]

/-- A schema that refers to a leaf, and then to what leads into the circle. -/
def schema : Value :=
  .mapping [(.str "oneOf", .array .list [.reference "#/components/schemas/leaf",
    .reference "#/components/schemas/way"])]

end Detour

/-- The leaf, which is done by then, has no part in the circuit, and the circuit does not come back
to where it starts. -/
theorem circuit_of_inline_detour :
    (inline Detour.root defaultAreas Detour.schema).result =
        .error (.error (.circular ["#/components/schemas/way", "#/components/schemas/a",
          "#/components/schemas/b", "#/components/schemas/a"])) ∧
      Circuit Detour.root defaultAreas Detour.schema
        ["#/components/schemas/way", "#/components/schemas/a", "#/components/schemas/b"]
        "#/components/schemas/a" := by
  have hfails : (inline Detour.root defaultAreas Detour.schema).result =
      .error (.error (.circular ["#/components/schemas/way", "#/components/schemas/a",
        "#/components/schemas/b", "#/components/schemas/a"])) := rfl
  obtain ⟨way, last, hcause, -, hcircuit⟩ := circuit_of_inline hfails rfl
  have hsame : way ++ [last] = ["#/components/schemas/way", "#/components/schemas/a",
      "#/components/schemas/b"] ++ ["#/components/schemas/a"] :=
    (ReferenceError.circular.inj hcause).symm
  obtain ⟨rfl, hlast⟩ := List.append_inj' hsame rfl
  obtain rfl := List.singleton_inj.mp hlast
  exact ⟨hfails, hcircuit⟩

end ApiSchema
