/-
One location, spelled in several ways.

A run tells a circular reference by its text.  But a location can be spelled in several
ways, because a tilde that escapes nothing stands for itself, and so a run may expand a
location inside of its own expansion and go round once more.  A run that tells circular
references by the place that they name stops a lap earlier.  The two runs agree.

On the second lap nothing can go wrong that did not go wrong on the first one.  The
chain is longer, and a longer chain only ever forbids: what was passed is passed again
or is circular now (`pass_or_circles`).  So the lap ends with a circular reference, at
the latest where it comes to the text by which the first lap went on.  `Retraceable`
says this of all targets that are being expanded at once.  It is the invariant of the
comparison, which goes along the calls of the run.
-/
import ApiSchema.Proofs.Reference.Acyclic
import ApiSchema.Proofs.Reference.Locality
import ApiSchema.Proofs.Reference.Termination

namespace ApiSchema

open Entries (subschemas mapSchemas)
open Relation (TransGen)

/-! ### Places -/

/-- The place that a reference names, if its text is a local pointer. -/
def placeOf? (ref : String) : Option (List String) := (Pointer.parse? ref).map (·.segments)

/-- The reference names the place of one that is being expanded, in whatever spelling. -/
def namesOpen (chain : List String) (ref : String) : Bool :=
  (placeOf? ref).isSome && chain.any fun outer => placeOf? outer = placeOf? ref

variable {document v w t c : Value} {areas chain longer : List String} {es : Entries}
  {ref outer : String} {before after : List Value} {g : Value → Value}
  {isOpen : List String → String → Bool} {failure : Failure ReferenceError}
  {run run' : List String → Value → Traced (Failure ReferenceError) Value}

theorem exists_placeOf?_of_resolve (h : resolve document areas (.reference ref) = .ok t) :
    ∃ place, placeOf? ref = some place := by
  obtain ⟨p, hp, -⟩ := resolve_eq_ok_iff.mp h
  rw [placeOf?, (supportedPointer_eq_ok_iff.mp hp).1]
  exact ⟨p.segments, rfl⟩

/-- References to one place have one target. -/
theorem resolve_of_placeOf?_eq (hplace : placeOf? outer = placeOf? ref)
    (h : resolve document areas (.reference outer) = .ok t) :
    resolve document areas (.reference ref) = .ok t := by
  obtain ⟨q, hq, ht⟩ := resolve_eq_ok_iff.mp h
  obtain ⟨hparse, hareas, area, harea, r, hr, hbelow⟩ := supportedPointer_eq_ok_iff.mp hq
  rw [placeOf?, hparse, Option.map_some] at hplace
  obtain ⟨p, hp, hsegments⟩ := Option.map_eq_some_iff.mp hplace.symm
  have hsame : p.isBelow r = q.isBelow r := by
    rw [Pointer.isBelow, Pointer.isBelow, Pointer.startsWith, Pointer.startsWith, hsegments]
  refine resolve_eq_ok_iff.mpr ⟨p, supportedPointer_eq_ok_iff.mpr ?_, hsegments ▸ ht⟩
  exact ⟨hp, hareas, area, harea, r, hr, hsame.trans hbelow⟩

/-- What is being expanded is told, if it resolves at all. -/
theorem namesOpen_of_mem (hmem : ref ∈ chain)
    (h : resolve document areas (.reference ref) = .ok t) : namesOpen chain ref = true := by
  obtain ⟨place, hplace⟩ := exists_placeOf?_of_resolve h
  rw [namesOpen, hplace, Bool.and_eq_true, List.any_eq_true]
  exact ⟨rfl, ref, hmem, by simpa using hplace⟩

/-! ### Runs with a test of their own -/

/-- The equation of inlining, if `isOpen` tells the references that are being expanded. -/
def IsRunWhen (document : Value) (areas : List String) (isOpen : List String → String → Bool)
    (run : List String → Value → Traced (Failure ReferenceError) Value) : Prop :=
  ∀ chain v, run chain v = v.walkM (expandNodeWhen document areas isOpen run chain)

/-- The equation of inlining in which a reference is circular if it names the place of one that is
being expanded. -/
def IsRunByPlace (document : Value) (areas : List String)
    (run : List String → Value → Traced (Failure ReferenceError) Value) : Prop :=
  IsRunWhen document areas namesOpen run

theorem IsRun.isRunWhen (h : IsRun document areas run) :
    IsRunWhen document areas (fun chain ref => ref ∈ chain) run := by
  intro chain v
  rw [← expandNode_eq]
  exact h chain v

/-- What is made of a call, given what is made of the calls inside of it. -/
noncomputable def callByPlace (document : Value) (areas : List String) (call : Call)
    (inner : ∀ next, TransGen (fun inner outer => Call.Makes document areas outer inner) next call →
      Traced (Failure ReferenceError) Value) : Traced (Failure ReferenceError) Value :=
  open Classical in
  call.value.walkM (expandNodeWhen document areas namesOpen (fun chain t =>
    if h : TransGen (fun inner outer => Call.Makes document areas outer inner) ⟨chain, t⟩ call then
      inner ⟨chain, t⟩ h
    else pure t) call.chain)

/-- Telling references by their places, a run makes calls that the program makes, so it ends. -/
theorem transGen_makes_of_not_namesOpen (href : ref ∈ v.references)
    (hopen : namesOpen chain ref = false) (ht : resolve document areas (.reference ref) = .ok t) :
    TransGen (fun inner outer => Call.Makes document areas outer inner) ⟨chain ++ [ref], t⟩
      ⟨chain, v⟩ := by
  refine Relation.transGen_swap.mpr (Call.makes_target href (fun hmem => ?_) ht)
  rw [namesOpen_of_mem hmem ht] at hopen
  cases hopen

/-- **Inlining by places is defined by its equation.** -/
theorem existsUnique_isRunByPlace (document : Value) (areas : List String) :
    ∃! run, IsRunByPlace document areas run := by
  have hwf := (Call.wellFounded_makes document areas).transGen
  refine ⟨fun chain v => hwf.fix (callByPlace document areas) ⟨chain, v⟩, fun chain v => ?_,
    fun run h => ?_⟩
  · dsimp only
    rw [hwf.fix_eq]
    refine walkM_expandNodeWhen_congr fun ref href hopen t ht => ?_
    exact dif_pos (transGen_makes_of_not_namesOpen href hopen ht)
  · funext chain v
    refine hwf.induction (C := fun call => run call.chain call.value =
      hwf.fix (callByPlace document areas) call) ⟨chain, v⟩ fun call ih => ?_
    rw [h, hwf.fix_eq]
    refine walkM_expandNodeWhen_congr fun ref href hopen t ht => ?_
    have hmakes := transGen_makes_of_not_namesOpen href hopen ht
    rw [dif_pos hmakes]
    exact ih _ hmakes

/-! ### One node of a run -/

namespace IsRunWhen

variable (h : IsRunWhen document areas isOpen run)
include h

theorem result_eq (chain : List String) (v : Value) :
    (run chain v).result =
      v.walkM fun es => (expandNodeWhen document areas isOpen run chain es).result := by
  rw [h, Traced.result_walkM]

theorem result_atom (hv : v.isMapping = false) : (run chain v).result = .ok v := by
  rw [h.result_eq, Value.walkM_atom _ hv]
  rfl

/-- A node fails as the first of its schemas does that fails. -/
theorem result_of_error (hsplit : subschemas es = before ++ c :: after)
    (hbefore : ∀ x ∈ before, ∃ w, (run chain x).result = .ok w)
    (hc : (run chain c).result = .error failure) :
    (run chain (.mapping es)).result = .error failure := by
  simp only [h.result_eq] at hbefore hc ⊢
  exact Value.walkM_mapping_of_error hsplit hbefore hc

theorem result_node (hg : ∀ c ∈ subschemas es, (run chain c).result = .ok (g c))
    (href : Entries.ref? es = none) :
    (run chain (.mapping es)).result = .ok (.mapping (mapSchemas g es)) := by
  simp only [h.result_eq] at hg ⊢
  rw [Value.walkM_mapping_of_ok hg, expandNodeWhen, Entries.ref?_mapSchemas, href]
  rfl

/-- A reference is given to the run again once its schemas are passed. -/
theorem result_reference (hg : ∀ c ∈ subschemas es, (run chain c).result = .ok (g c))
    (href : Entries.ref? es = some ref) :
    (run chain (.mapping es)).result =
      if isOpen chain ref then .error (.error (.circular (chain ++ [ref])))
      else (noteSiblings ref es).result >>= fun _ =>
        (resolve document areas (.reference ref)).mapError .error >>= fun t =>
          (run (chain ++ [ref]) t).result := by
  have hwalk := h.result_eq chain (.mapping es)
  simp only [h.result_eq] at hg
  rw [hwalk, Value.walkM_mapping_of_ok hg, expandNodeWhen, Entries.ref?_mapSchemas, href]
  dsimp only
  split
  · rfl
  · rw [Traced.result_bind, noteSiblings_congr Entries.keys_mapSchemas]
    congr 1
    funext _
    rw [Traced.result_bind, result_resolveLogged]

end IsRunWhen

/-! ### Longer chains -/

/-- The run ends at a circular reference, on the way from the chain on. -/
def Circles (chain : List String) (result : Except (Failure ReferenceError) Value) : Prop :=
  ∃ path, chain <+: path ∧ result = .error (.error (.circular path))

theorem Circles.of_append {result : Except (Failure ReferenceError) Value}
    (h : Circles (chain ++ [ref]) result) : Circles chain result := by
  obtain ⟨path, hpath, hresult⟩ := h
  exact ⟨path, (List.prefix_append chain [ref]).trans hpath, hresult⟩

namespace IsRun

variable (h : IsRun document areas run)
include h

theorem inlines_of_ok (hw : (run chain v).result = .ok w) : Inlines document areas chain v w := by
  rw [h.unique (isRun_sufficientRun document areas)] at hw
  exact inlines_of_inlineWithin hw

/-- If every schema of a node is passed or circular, all are passed or the node is circular. -/
theorem passes_or_circles_below (hbelow : ∀ c ∈ subschemas es,
      (run chain c).result = .ok (g c) ∨ Circles chain (run chain c).result) :
    (∀ c ∈ subschemas es, (run chain c).result = .ok (g c)) ∨
      Circles chain (run chain (.mapping es)).result := by
  rcases passes_or_fails (fun c => (run chain c).result) (subschemas es) with
    hpass | ⟨before, c, after, failure, hsplit, hbefore, hc⟩
  · refine .inl fun c hc => (hbelow c hc).resolve_right ?_
    rintro ⟨path, -, hpath⟩
    obtain ⟨w, hw⟩ := hpass c hc
    simp [hw] at hpath
  · right
    rw [h.isRunWhen.result_of_error hsplit hbefore hc, ← hc]
    refine (hbelow c (by simp [hsplit])).resolve_left ?_
    simp [hc]

/-- **A longer chain only forbids**: what is passed under a chain is passed under a longer one,
with the same answer, or it is circular there. -/
theorem pass_or_circles (hw : Inlines document areas chain v w) (hsub : chain ⊆ longer) :
    (run longer v).result = .ok w ∨ Circles longer (run longer v).result := by
  induction hw generalizing longer with
  | atom hv => exact .inl (h.isRunWhen.result_atom hv)
  | node g href _ ih =>
    refine (h.passes_or_circles_below fun c hc => ih c hc hsub).imp_left fun hpass => ?_
    exact h.isRunWhen.result_node hpass href
  | @reference chain es ref t w g href _ _ siblings target _ ih ihtarget =>
    rcases h.passes_or_circles_below fun c hc => ih c hc hsub with hpass | hcircles
    · rw [h.isRunWhen.result_reference hpass href, siblings, target]
      by_cases hmem : ref ∈ longer
      · exact .inr ⟨longer ++ [ref], List.prefix_append _ _, by simp [hmem]⟩
      · simp only [hmem, decide_false, Bool.false_eq_true, if_false]
        refine (ihtarget (List.append_subset.mpr ⟨?_, List.subset_append_right _ _⟩)).imp_right
          Circles.of_append
        exact List.Subset.trans hsub (List.subset_append_left _ _)
    · exact .inr hcircles

/-- A node is circular under a longer chain if one of its schemas is, and those before it are
passed under the chain. -/
theorem circles_of_member (hsplit : subschemas es = before ++ c :: after)
    (hbefore : ∀ x ∈ before, ∃ w, (run chain x).result = .ok w) (hsub : chain ⊆ longer)
    (hc : Circles longer (run longer c).result) :
    Circles longer (run longer (.mapping es)).result := by
  rcases passes_or_fails (fun x => (run longer x).result) before with
    hpass | ⟨front, x, back, failure, hfront, hpass, hx⟩
  · obtain ⟨path, hpath, hresult⟩ := hc
    exact ⟨path, hpath, h.isRunWhen.result_of_error hsplit hpass hresult⟩
  · obtain ⟨w, hw⟩ := hbefore x (by simp [hfront])
    have hxs : subschemas es = front ++ x :: (back ++ c :: after) := by simp [hsplit, hfront]
    rw [h.isRunWhen.result_of_error hxs hpass hx, ← hx]
    refine (h.pass_or_circles (h.inlines_of_ok hw) hsub).resolve_left ?_
    simp [hx]

/-- A reference is circular under a longer chain that it is on, if what stands in it is passed
under the chain. -/
theorem circles_of_open (hg : ∀ c ∈ subschemas es, (run chain c).result = .ok (g c))
    (href : Entries.ref? es = some ref) (hsub : chain ⊆ longer) (hmem : ref ∈ longer) :
    Circles longer (run longer (.mapping es)).result := by
  rcases h.passes_or_circles_below fun c hc =>
    h.pass_or_circles (h.inlines_of_ok (hg c hc)) hsub with hpass | hcircles
  · rw [h.isRunWhen.result_reference hpass href]
    exact ⟨longer ++ [ref], List.prefix_append _ _, by simp [hmem]⟩
  · exact hcircles

end IsRun

/-! ### The second lap -/

/-- The targets that are being expanded lead on to the value at hand: they resolve, and each of
them is circular under every longer chain under which the value is. -/
def Retraceable (document : Value) (areas : List String)
    (run : List String → Value → Traced (Failure ReferenceError) Value) (chain : List String)
    (v : Value) : Prop :=
  ∀ outer ∈ chain, ∃ t, resolve document areas (.reference outer) = .ok t ∧
    ∀ longer, chain ⊆ longer → Circles longer (run longer v).result →
      Circles longer (run longer t).result

namespace Retraceable

/-- Going on to a schema of a node keeps the way back. -/
theorem walk (hR : Retraceable document areas run chain (.mapping es))
    (h : IsRun document areas run) (hsplit : subschemas es = before ++ c :: after)
    (hbefore : ∀ x ∈ before, ∃ w, (run chain x).result = .ok w) :
    Retraceable document areas run chain c := by
  intro outer houter
  obtain ⟨t, ht, hback⟩ := hR outer houter
  exact ⟨t, ht, fun longer hsub hc =>
    hback longer hsub (h.circles_of_member hsplit hbefore hsub hc)⟩

/-- Going on to the target of a reference keeps the way back, because the reference is on every
longer chain. -/
theorem expand (hR : Retraceable document areas run chain (.mapping es))
    (h : IsRun document areas run) (hg : ∀ c ∈ subschemas es, (run chain c).result = .ok (g c))
    (href : Entries.ref? es = some ref) (ht : resolve document areas (.reference ref) = .ok t) :
    Retraceable document areas run (chain ++ [ref]) t := by
  intro outer houter
  rcases List.mem_append.mp houter with hold | hnew
  · obtain ⟨u, hu, hback⟩ := hR outer hold
    refine ⟨u, hu, fun longer hsub _ => ?_⟩
    obtain ⟨hchain, hlast⟩ := List.append_subset.mp hsub
    exact hback longer hchain (h.circles_of_open hg href hchain (hlast (by simp)))
  · obtain rfl := List.mem_singleton.mp hnew
    exact ⟨t, ht, fun _ _ hc => hc⟩

/-- **The second lap ends at a circular reference.** -/
theorem circles (hR : Retraceable document areas run chain (.mapping es))
    (h : IsRun document areas run) (hg : ∀ c ∈ subschemas es, (run chain c).result = .ok (g c))
    (href : Entries.ref? es = some ref) (hopen : namesOpen chain ref = true) :
    ∃ t, resolve document areas (.reference ref) = .ok t ∧
      Circles (chain ++ [ref]) (run (chain ++ [ref]) t).result := by
  rw [namesOpen, Bool.and_eq_true, List.any_eq_true] at hopen
  obtain ⟨-, outer, houter, hplace⟩ := hopen
  obtain ⟨t, ht, hback⟩ := hR outer houter
  refine ⟨t, resolve_of_placeOf?_eq (of_decide_eq_true hplace) ht, ?_⟩
  have hsub : chain ⊆ chain ++ [ref] := List.subset_append_left _ _
  exact hback _ hsub (h.circles_of_open hg href hsub (by simp))

end Retraceable

/-! ### Both runs -/

/-- The second run ends as the first one does, except that it may have found a circular reference
sooner on the same way. -/
inductive Agrees : Except (Failure ReferenceError) Value → Except (Failure ReferenceError) Value →
    Prop
  /-- The ends are the same. -/
  | same (result : Except (Failure ReferenceError) Value) : Agrees result result
  /-- Both end at a circular reference. -/
  | circular {longer shorter : List String} (h : shorter <+: longer) :
      Agrees (.error (.error (.circular longer))) (.error (.error (.circular shorter)))

/-- The first run fails to sort the keys beside a reference that is circular for the second one. -/
def FailsToSort (first second : Except (Failure ReferenceError) Value) : Prop :=
  first = .error (.fault .unorderedKeys) ∧ ∃ path, second = .error (.error (.circular path))

/-- The two ways in which the runs may end. -/
def EndAlike (first second : Except (Failure ReferenceError) Value) : Prop :=
  Agrees first second ∨ FailsToSort first second

namespace EndAlike

variable {result : Except (Failure ReferenceError) Value}

theorem same (result : Except (Failure ReferenceError) Value) : EndAlike result result :=
  .inl (.same result)

theorem eq_ok (h : EndAlike (.ok w) result) : result = .ok w := by
  rcases h with hagrees | ⟨hfault, -⟩
  · cases hagrees
    rfl
  · simp at hfault

theorem exists_error (h : EndAlike (.error failure) result) :
    ∃ failure', result = .error failure' := by
  rcases h with hagrees | ⟨-, path, hpath⟩
  · cases hagrees with
    | same => exact ⟨_, rfl⟩
    | circular => exact ⟨_, rfl⟩
  · exact ⟨_, hpath⟩

end EndAlike

section Comparison

variable (h : IsRun document areas run) (h' : IsRunByPlace document areas run')
include h h'

/-- If the schemas of a node end alike, one after the other as long as they are passed, both runs
pass all of them with the same answers, or the node ends alike, as the first that fails. -/
theorem pass_or_endAlike_below
    (hmember : ∀ before c after, subschemas es = before ++ c :: after →
      (∀ x ∈ before, ∃ w, (run chain x).result = .ok w) →
        EndAlike (run chain c).result (run' chain c).result) :
    (∃ g : Value → Value, (∀ c ∈ subschemas es, (run chain c).result = .ok (g c)) ∧
      ∀ c ∈ subschemas es, (run' chain c).result = .ok (g c)) ∨
    EndAlike (run chain (.mapping es)).result (run' chain (.mapping es)).result := by
  have hpassed {before c after w} (hsplit : subschemas es = before ++ c :: after)
      (hbefore : ∀ x ∈ before, ∃ w, (run chain x).result = .ok w)
      (hw : (run chain c).result = .ok w) : (run' chain c).result = .ok w := by
    have halike := hmember before c after hsplit hbefore
    rw [hw] at halike
    exact halike.eq_ok
  rcases passes_or_fails (fun c => (run chain c).result) (subschemas es) with
    hpass | ⟨before, c, after, failure, hsplit, hbefore, hc⟩
  · have hg (c : Value) (hc : c ∈ subschemas es) :
        (run chain c).result = .ok (answer (fun c => (run chain c).result) c) := by
      obtain ⟨w, hw⟩ := hpass c hc
      rw [hw, answer_eq hw]
    refine .inl ⟨_, hg, fun c hc => ?_⟩
    obtain ⟨before, after, hsplit⟩ := List.append_of_mem hc
    exact hpassed hsplit (fun x hx => hpass x (by simp [hsplit, hx])) (hg c hc)
  · have hbefore' (x : Value) (hx : x ∈ before) : ∃ w, (run' chain x).result = .ok w := by
      obtain ⟨w, hw⟩ := hbefore x hx
      obtain ⟨front, back, rfl⟩ := List.append_of_mem hx
      have hfront : subschemas es = front ++ x :: (back ++ c :: after) := by simp [hsplit]
      exact ⟨w, hpassed hfront (fun y hy => hbefore y (by simp [hy])) hw⟩
    have halike := hmember before c after hsplit hbefore
    rw [hc] at halike
    obtain ⟨failure', hfailure'⟩ := halike.exists_error
    right
    rw [h.isRunWhen.result_of_error hsplit hbefore hc,
      IsRunWhen.result_of_error h' hsplit hbefore' hfailure', ← hfailure']
    exact halike

/-- A node whose schemas both runs have passed ends alike, if its target does. -/
theorem endAlike_node (hR : Retraceable document areas run chain (.mapping es))
    (hg : ∀ c ∈ subschemas es, (run chain c).result = .ok (g c))
    (hg' : ∀ c ∈ subschemas es, (run' chain c).result = .ok (g c))
    (htarget : ∀ ref t, Entries.ref? es = some ref → ref ∉ chain →
      resolve document areas (.reference ref) = .ok t →
        EndAlike (run (chain ++ [ref]) t).result (run' (chain ++ [ref]) t).result) :
    EndAlike (run chain (.mapping es)).result (run' chain (.mapping es)).result := by
  cases href : Entries.ref? es with
  | none =>
    rw [h.isRunWhen.result_node hg href, IsRunWhen.result_node h' hg' href]
    exact .same _
  | some ref =>
    rw [h.isRunWhen.result_reference hg href, IsRunWhen.result_reference h' hg' href]
    by_cases hmem : ref ∈ chain
    · obtain ⟨t, ht, -⟩ := hR ref hmem
      simp only [hmem, decide_true, namesOpen_of_mem hmem ht, if_true]
      exact .same _
    simp only [hmem, decide_false, Bool.false_eq_true, if_false]
    cases hopen : namesOpen chain ref with
    | true =>
      -- The place is told here, and the text only after another lap.
      obtain ⟨t, ht, path, hpath, hlap⟩ := hR.circles h hg href hopen
      cases hsiblings : (noteSiblings ref es).result with
      | ok _ =>
        rw [ht]
        show EndAlike (run (chain ++ [ref]) t).result _
        rw [hlap]
        exact .inl (.circular hpath)
      | error failure =>
        rw [(siblingKeys_of_noteSiblings hsiblings).2]
        exact .inr ⟨rfl, _, rfl⟩
    | false =>
      simp only [Bool.false_eq_true, if_false]
      cases (noteSiblings ref es).result with
      | error fault => exact .same _
      | ok _ =>
        cases ht : resolve document areas (.reference ref) with
        | error cause => exact .same _
        | ok t => exact htarget ref t href hmem ht

/-- **The two runs end alike wherever the way back is kept.**  The induction goes along the calls
of the run by texts, which makes all those of the other one. -/
theorem endAlike_of_retraceable (chain : List String) (v : Value)
    (hR : Retraceable document areas run chain v) :
    EndAlike (run chain v).result (run' chain v).result := by
  revert hR
  refine (Call.wellFounded_makes document areas).induction (C := fun call =>
    Retraceable document areas run call.chain call.value →
      EndAlike (run call.chain call.value).result (run' call.chain call.value).result)
    ⟨chain, v⟩ fun ⟨chain, v⟩ ih hR => ?_
  show EndAlike (run chain v).result (run' chain v).result
  cases hv : v.isMapping with
  | false =>
    rw [h.isRunWhen.result_atom hv, IsRunWhen.result_atom h' hv]
    exact .same _
  | true =>
    obtain ⟨es, rfl⟩ : ∃ es, v = .mapping es := by
      cases v <;> simp [Value.isMapping] at hv ⊢
    -- A schema is compared when its turn has come, so those before it are passed.
    rcases pass_or_endAlike_below h h' fun before c after hsplit hbefore =>
      ih ⟨chain, c⟩ (.walk (by simp [hsplit])) (hR.walk h hsplit hbefore) with
      ⟨g, hg, hg'⟩ | halike
    · exact endAlike_node h h' hR hg hg' fun ref t href hfresh ht =>
        ih ⟨chain ++ [ref], t⟩ (.expand href hfresh ht) (hR.expand h hg href ht)
    · exact halike

end Comparison

/-- **Telling circular references by their texts is as good as telling them by their places.**  The
run by places is defined by its equation, and it ends as the run by texts does: with the same
result, or both at a circular reference, where the chain of the run by texts may go on a while
longer.  If the keys of the document and of the schema are texts there is no exception.  Otherwise
there is one: keys that cannot be sorted, beside a reference that only the run by places tells at
once. -/
theorem inline_agrees_byPlace (document : Value) (areas : List String) :
    (∃! run, IsRunByPlace document areas run) ∧
      ∀ run, IsRunByPlace document areas run → ∀ v,
        (Agrees (inline document areas v).result (run [] v).result ∨
          FailsToSort (inline document areas v).result (run [] v).result) ∧
        (document.textKeys = true → v.textKeys = true →
          Agrees (inline document areas v).result (run [] v).result) := by
  refine ⟨existsUnique_isRunByPlace document areas, fun run h v => ?_⟩
  have hboth : EndAlike (inline document areas v).result (run [] v).result := by
    rw [inline_eq_sufficientRun]
    refine endAlike_of_retraceable (isRun_sufficientRun document areas) h [] v ?_
    rintro outer ⟨⟩
  refine ⟨hboth, fun hdocument hv => hboth.resolve_right fun hfails => ?_⟩
  obtain ⟨cause, hcause, -⟩ := blocked_of_inline hdocument hv hfails.1
  cases hcause

namespace Tilde

/-- A schema that refers to itself, under another spelling of its name. -/
def self : Value := .mapping [(.str "items", .reference "#/components/schemas/a~0b")]

/-- A document with the schema. -/
def root : Value :=
  .mapping [(.str "components", .mapping [(.str "schemas", .mapping [(.str "a~b", self)])])]

end Tilde

/-- The run by texts goes round once more. -/
theorem inline_agrees_byPlace_tilde :
    (inline Tilde.root defaultAreas (.reference "#/components/schemas/a~b")).result =
        .error (.error (.circular ["#/components/schemas/a~b", "#/components/schemas/a~0b",
          "#/components/schemas/a~0b"])) ∧
      ∃ run, IsRunByPlace Tilde.root defaultAreas run ∧
        Agrees (inline Tilde.root defaultAreas (.reference "#/components/schemas/a~b")).result
          (run [] (.reference "#/components/schemas/a~b")).result ∧
        (run [] (.reference "#/components/schemas/a~b")).result =
          .error (.error (.circular ["#/components/schemas/a~b", "#/components/schemas/a~0b"])) := by
  obtain ⟨⟨run, hrun, -⟩, hagrees⟩ := inline_agrees_byPlace Tilde.root defaultAreas
  have h : IsRunWhen Tilde.root defaultAreas namesOpen run := hrun
  refine ⟨rfl, run, hrun, (hagrees run hrun _).2 (by decide) (by decide), ?_⟩
  have hbare (ref : String) (chain : List String) :
      ∀ c ∈ subschemas [(.str Keyword.ref, .str ref)], (run chain c).result = .ok (id c) := by
    simp [subschemas_reference]
  have hinner : (run ["#/components/schemas/a~b"] (.reference "#/components/schemas/a~0b")).result =
      .error (.error (.circular ["#/components/schemas/a~b", "#/components/schemas/a~0b"])) := by
    have hopen : namesOpen ["#/components/schemas/a~b"] "#/components/schemas/a~0b" = true := by
      decide +kernel
    rw [Value.reference, h.result_reference (hbare _ _) ref?_reference, hopen]
    rfl
  have hself : (run ["#/components/schemas/a~b"] Tilde.self).result =
      .error (.error (.circular ["#/components/schemas/a~b", "#/components/schemas/a~0b"])) := by
    have hsplit : subschemas [(.str "items", .reference "#/components/schemas/a~0b")] =
        [] ++ .reference "#/components/schemas/a~0b" :: [] := rfl
    exact h.result_of_error hsplit (by simp) hinner
  rw [Value.reference, h.result_reference (hbare _ _) ref?_reference]
  exact hself

end ApiSchema
