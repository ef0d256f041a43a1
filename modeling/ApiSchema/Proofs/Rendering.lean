/-
Printed schemas are read back.

A single schema is printed by itself, any other number of them as a mapping from their
names, in which the last schema of a name counts and stands where the first one stood.

What is printed for plain schemas is always a text of ASCII characters, and a strict
reader makes of it what was printed, up to the kinds of arrays: in the order of the
document, or in ascending order if keys are sorted.  Sorted text needs no reader of its
own, because it is the text of the ascending order with keys left as they are.

Two things can stand against a text.  An integer may have more digits than can be
written, which `Plain` excludes, and an indentation may be wider than can be counted.
-/
import ApiSchema.Proofs.Json.Printed
import ApiSchema.Proofs.Json.Reading
import ApiSchema.Rendering
import Mathlib.Algebra.Group.Nat.Defs

namespace ApiSchema

/-! ### Names in order -/

namespace Entries

variable {es : Entries} {key : Scalar} {v : Value}

/-- A text that is a key already keeps its place, a new one stands last. -/
theorem keys_insert (hkey : key.isText = true) :
    keys (insert es key v) = if key ∈ keys es then keys es else keys es ++ [key] := by
  induction es with
  | nil => rfl
  | cons e es ih =>
    obtain ⟨k, w⟩ := e
    have hsame : k.same key = true ↔ key = k := by
      rw [Scalar.eq_str_name hkey, Scalar.same_str, eq_comm]
    have hcons {f : Scalar × Value} {es : Entries} : keys (f :: es) = f.1 :: keys es := rfl
    by_cases hk : key = k
    · rw [insert, if_pos (hsame.mpr hk), if_pos (by rw [hcons, hk]; exact List.mem_cons_self)]
      rfl
    · rw [insert, if_neg (mt hsame.mp hk), hcons, hcons, ih]
      by_cases hmem : key ∈ keys es <;> simp [hk, hmem]

/-- Texts that are read one by one stand where they are seen first. -/
theorem keys_ofPairs {pairs : List (Scalar × Value)} (h : ∀ p ∈ pairs, p.1.isText = true) :
    keys (ofPairs pairs) = (pairs.map (·.1)).eraseDups := by
  induction pairs using List.reverseRecOn with
  | nil => rfl
  | append_singleton pairs p ih =>
    obtain ⟨hpairs, hp⟩ := List.forall_mem_append.mp h
    have hkeys : keys (ofPairs pairs) = (pairs.map (·.1)).eraseDups := ih hpairs
    have hsnoc : keys (ofPairs (pairs ++ [p])) = keys (insert (ofPairs pairs) p.1 p.2) := by
      rw [ofPairs, List.foldl_append]
      rfl
    rw [hsnoc, keys_insert (hp p List.mem_cons_self), hkeys, List.map_append,
      List.eraseDups_append, List.map_singleton]
    by_cases hseen : p.1 ∈ pairs.map (·.1)
    · have hnone : [p.1].removeAll (pairs.map (·.1)) = [] := by simp [List.removeAll, hseen]
      rw [if_pos (List.mem_eraseDups.mpr hseen), hnone, List.eraseDups_nil, List.append_nil]
    · have hone : [p.1].removeAll (pairs.map (·.1)) = [p.1] := by simp [List.removeAll, hseen]
      rw [if_neg (mt List.mem_eraseDups.mp hseen), hone, List.eraseDups_cons, List.filter_nil,
        List.eraseDups_nil]

end Entries

/-! ### What is printed -/

variable {settings : OutputSettings} {schemas : List ConvertedSchema}

/-- Any number of schemas but one is printed as their mapping. -/
theorem schemasValue_of_length_ne (h : schemas.length ≠ 1) :
    schemasValue schemas =
      .mapping (Entries.ofPairs (schemas.map fun s => (.str s.name, s.schema))) := by
  match schemas with
  | [] => rfl
  | [_] => exact absurd rfl h
  | _ :: _ :: _ => rfl

/-- Under a name stands the last schema of the name. -/
theorem get?_ofPairs_schemas (name : String) :
    Entries.get? (Entries.ofPairs (schemas.map fun s => (.str s.name, s.schema))) name =
      (schemas.reverse.find? (·.name = name)).map (·.schema) := by
  rw [Entries.get?_ofPairs, ← List.map_reverse]
  induction schemas.reverse with
  | nil => rfl
  | cons s rest ih =>
    rw [List.map_cons, Entries.get?_cons, ih]
    by_cases hname : s.name = name <;> simp [hname]

theorem plain_schemasValue (h : ∀ s ∈ schemas, Json.Plain s.schema) :
    Json.Plain (schemasValue schemas) := by
  by_cases hlength : schemas.length = 1
  · obtain ⟨one, rfl⟩ := List.length_eq_one_iff.mp hlength
    exact h one List.mem_cons_self
  · rw [schemasValue_of_length_ne hlength]
    refine .mapping (.ofPairs (List.forall_mem_map.mpr fun _ _ => rfl)) fun e he => ?_
    obtain ⟨p, hp, hvalue⟩ := Entries.mem_ofPairs he
    obtain ⟨s, hs, rfl⟩ := List.mem_map.mp hp
    rw [hvalue]
    exact h s hs

/-! ### What is read -/

/-- **The text of a plain value is read as the value, in the order that the style asks for.** -/
theorem Json.parse?_render {style : Json.Style} {v : Value}
    (hindent : style.indent ≤ Json.countableIndent) (h : Json.Plain v) :
    ∃ text w, Json.render style v = .ok text ∧ (∀ c ∈ text.toList, c.toNat < 128) ∧
      Json.parse? text = some w ∧ (style.sortKeys = false → w = v.lists) ∧
      (style.sortKeys = true → Reordered v.lists w ∧ AscendingKeys w) := by
  have hrender (v : Value) : Json.render style v = Json.write style 0 v := by
    rw [Json.render, if_neg (Nat.not_lt.mpr hindent)]
  obtain ⟨indent, sortKeys⟩ := style
  have hinOrder : Json.Style.sortKeys ⟨indent, false⟩ = false := rfl
  cases sortKeys with
  | false =>
    obtain ⟨text, htext, hreads⟩ := Json.readsAs_write hinOrder h 0
    exact ⟨text, v.lists, by rw [hrender, htext], (Json.shown_write htext).ascii, hreads.parse?,
      fun _ => rfl, by simp⟩
  | true =>
    obtain ⟨w, hreordered, hascending⟩ := h.wellKeyed.exists_ascending
    have hplain : Json.Plain w := h.of_reordered hreordered
    obtain ⟨text, htext, hreads⟩ := Json.readsAs_write hinOrder hplain 0
    have hwritten : Json.write ⟨indent, true⟩ 0 v = .ok text := calc
      _ = Json.write ⟨indent, true⟩ 0 w :=
        (Alike.of_reordered hreordered h.wellKeyed).write_eq rfl 0
      _ = Json.write ⟨indent, false⟩ 0 w := hascending.write_eq hplain.wellKeyed indent 0
      _ = .ok text := htext
    exact ⟨text, w.lists, by rw [hrender, hwritten], (Json.shown_write htext).ascii, hreads.parse?,
      by simp, fun _ => ⟨hreordered.lists, hascending.lists⟩⟩

/-- **Printed schemas are read back**: the one schema, or the last schema of each name. -/
theorem parse?_renderSchemas (hindent : settings.indent ≤ Json.countableIndent)
    (hplain : ∀ s ∈ schemas, Json.Plain s.schema) :
    (∃ text w, renderSchemas settings schemas = .ok text ∧ (∀ c ∈ text.toList, c.toNat < 128) ∧
      Json.parse? text = some w ∧
      (settings.sortKeys = false → w = (schemasValue schemas).lists) ∧
      (settings.sortKeys = true →
        Reordered (schemasValue schemas).lists w ∧ AscendingKeys w)) ∧
    (∀ one, schemas = [one] → schemasValue schemas = one.schema) ∧
    (schemas.length ≠ 1 → ∃ es, schemasValue schemas = .mapping es ∧
      Entries.keys es = (schemas.map fun s => Scalar.str s.name).eraseDups ∧
      ∀ name, Entries.get? es name = (schemas.reverse.find? (·.name = name)).map (·.schema)) := by
  refine ⟨Json.parse?_render hindent (plain_schemasValue hplain), ?_, fun hlength => ?_⟩
  · rintro one rfl
    rfl
  · refine ⟨_, schemasValue_of_length_ne hlength, ?_, get?_ofPairs_schemas⟩
    rw [Entries.keys_ofPairs (List.forall_mem_map.mpr fun _ _ => rfl), List.map_map]
    rfl

/-- Three schemas under two names. -/
def repeatedSchemas : List ConvertedSchema :=
  [⟨"Pet", .null⟩, ⟨"Café", .mapping []⟩,
    ⟨"Pet", .mapping [(.str "type", .str "\n"), (.str "enum", .array .tuple [.null, .str "🐈"])]⟩]

/-- The last schema of the repeated name is read, below the other one. -/
theorem parse?_renderSchemas_repeated :
    1 ≤ Json.countableIndent ∧ (∀ s ∈ repeatedSchemas, Json.Plain s.schema) ∧
      ∃ text w, renderSchemas ⟨1, true⟩ repeatedSchemas = .ok text ∧ Json.parse? text = some w ∧
        AscendingKeys w ∧ Reordered (.mapping [(.str "Pet", .mapping [(.str "type", .str "\n"),
          (.str "enum", .array .list [.null, .str "🐈"])]), (.str "Café", .mapping [])]) w := by
  have hempty : Json.Plain (.mapping []) := .mapping ⟨nofun, .nil⟩ nofun
  have henum : Json.Plain (.array .tuple [.null, .str "🐈"]) :=
    .array .tuple
      (List.forall_mem_cons.mpr ⟨.scalar rfl, List.forall_mem_singleton.mpr (.scalar rfl)⟩)
  have hpet : Json.Plain
      (.mapping [(.str "type", .str "\n"), (.str "enum", .array .tuple [.null, .str "🐈"])]) :=
    .mapping ⟨by decide, by decide⟩
      (List.forall_mem_cons.mpr ⟨.scalar rfl, List.forall_mem_singleton.mpr henum⟩)
  have hplain : ∀ s ∈ repeatedSchemas, Json.Plain s.schema := by
    rintro s hs
    rcases List.mem_cons.mp hs with rfl | hs
    · exact .scalar rfl
    rcases List.mem_cons.mp hs with rfl | hs
    · exact hempty
    · obtain rfl := List.mem_singleton.mp hs
      exact hpet
  obtain ⟨⟨text, w, htext, -, hparse, -, hsorted⟩, -, -⟩ :=
    parse?_renderSchemas (by decide : (⟨1, true⟩ : OutputSettings).indent ≤ _) hplain
  exact ⟨by decide, hplain, text, w, htext, hparse, (hsorted rfl).2, (hsorted rfl).1⟩

/-- An integer of 4301 digits has no text, and neither has anything under an indentation that cannot
be counted. -/
theorem renderSchemas_unwritable :
    renderSchemas {}
        [⟨"S", .mapping [(.str "maximum", .scalar (.int (.ofNat (Nat.pow 10 4300))))]⟩] =
          .error .tooManyDigits ∧
      renderSchemas ⟨2 ^ 63, false⟩ [⟨"S", .mapping []⟩] = .error .hugeIndent := by
  refine ⟨?_, rfl⟩
  have hlong : Numeral.isWritable (.ofNat (Nat.pow 10 4300)) = false := by decide +kernel
  have hscalar : Json.writeScalar (.int (.ofNat (Nat.pow 10 4300))) = .error .tooManyDigits := by
    rw [Json.writeScalar, Json.plainScalar, if_neg (by rw [hlong]; decide)]
    intro text htext
    cases htext
  rw [renderSchemas, schemasValue, Json.render, if_neg (by decide), Json.write, Json.writeValues,
    Json.write, hscalar]
  rfl

end ApiSchema
