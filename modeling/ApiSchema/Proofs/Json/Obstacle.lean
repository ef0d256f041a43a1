/-
Values that have no JSON text.

Some scalars have no text: JSON has no form for byte strings, dates, moments and sets, and
an integer may have too many digits.  Under sorted keys a mapping has no text if its keys
cannot be sorted.  Nothing else stands in the way, so a tree has a text if and only if none
of its parts is such an obstacle (`exists_write_error_iff`).

The text is written from front to back and the first obstacle is reported.  Which one that
is depends on the order in which keys are sorted, but it is one of the obstacles
(`obstacle_of_write`).
-/
import ApiSchema.Proofs.Json.Arrangement
import ApiSchema.Proofs.Result
import ApiSchema.Proofs.Value.Tree

namespace ApiSchema.Json

/-- The scalar has no text. -/
inductive Textless : Scalar → Fault → Prop
  /-- It is an integer of too many digits. -/
  | long {n : Int} (digits : Numeral.isWritable n = false) : Textless (.int n) .tooManyDigits
  /-- It is a byte string. -/
  | bytes (bs : List UInt8) : Textless (.bytes bs) .noJsonForm
  /-- It is a date. -/
  | date (d : Date) : Textless (.date d) .noJsonForm
  /-- It is a moment. -/
  | moment (t : Moment) : Textless (.moment t) .noJsonForm
  /-- It is a set. -/
  | set (members : List String) (writable : Bool) : Textless (.set members writable) .noJsonForm

/-- Something in the value has no text, or is a mapping whose keys are to be sorted and cannot
be. -/
inductive Obstacle (sortKeys : Bool) : Value → Fault → Prop
  | scalar {s : Scalar} {f : Fault} (textless : Textless s f) : Obstacle sortKeys (.scalar s) f
  | item {kind : ArrayKind} {items : List Value} {v : Value} {f : Fault} (mem : v ∈ items)
    (obstacle : Obstacle sortKeys v f) : Obstacle sortKeys (.array kind items) f
  | key {es : Entries} {e : Scalar × Value} {f : Fault} (mem : e ∈ es)
    (textless : Textless e.1 f) : Obstacle sortKeys (.mapping es) f
  | value {es : Entries} {e : Scalar × Value} {f : Fault} (mem : e ∈ es)
    (obstacle : Obstacle sortKeys e.2 f) : Obstacle sortKeys (.mapping es) f
  | order {es : Entries} (sorts : sortKeys = true)
    (unsortable : ¬ Scalar.Sortable (Entries.keys es)) :
    Obstacle sortKeys (.mapping es) .unorderedKeys

variable {style : Style} {level : Nat} {s : Scalar} {v : Value} {es : Entries} {f : Fault}

/-! ### Scalars -/

theorem plainScalar_of_textless (h : Textless s f) : plainScalar s = .error f := by
  cases h with
  | long digits => rw [plainScalar, if_neg (by simp [digits])]
  | _ => rfl

theorem textless_of_plainScalar (hown : s.isOwn = true) (h : plainScalar s = .error f) :
    Textless s f := by
  cases s with
  | int n =>
    rw [plainScalar] at h
    split at h
    · simp at h
    · next hlong =>
      obtain rfl := Except.error.inj h
      exact .long (Bool.eq_false_iff.mpr hlong)
  | bytes bs =>
    obtain rfl := Except.error.inj h
    exact .bytes bs
  | date d =>
    obtain rfl := Except.error.inj h
    exact .date d
  | moment t =>
    obtain rfl := Except.error.inj h
    exact .moment t
  | set members writable =>
    obtain rfl := Except.error.inj h
    exact .set members writable
  | enclosing isMapping => simp [Scalar.isOwn] at hown
  | _ => simp [plainScalar] at h

/-- A scalar has a text as a value if it has one as a key. -/
theorem writeScalar_eq_error_iff : writeScalar s = .error f ↔ plainScalar s = .error f := by
  cases s with
  | str t => simp [writeScalar, plainScalar]
  | _ => rfl

theorem writeKey_eq_error_iff : writeKey s = .error f ↔ plainScalar s = .error f := by
  rw [writeKey]
  cases plainScalar s <;> simp [Except.map]

/-! ### Values -/

/-- **What is reported is one of the obstacles.** -/
theorem obstacle_of_write (htree : v.IsTree) (h : write style level v = .error f) :
    Obstacle style.sortKeys v f := by
  induction htree generalizing level f with
  | scalar own => exact .scalar (textless_of_plainScalar own (writeScalar_eq_error_iff.mp h))
  | array kind _ ih =>
    rcases bind_eq_error.mp h with hitems | ⟨texts, -, hdone⟩
    · rw [writeItems_eq] at hitems
      obtain ⟨v, hv, hfails⟩ := exists_error_of_mapM hitems
      exact .item hv (ih v hv hfails)
    · simp [pure, Except.pure] at hdone
  | @mapping es keys_own _ ih =>
    rw [write, writeValues_eq] at h
    rcases bind_eq_error.mp h with harrange | ⟨fields, hfields, hrest⟩
    · obtain ⟨hsort, hkeys, rfl⟩ := arrange_eq_error_iff.mp harrange
      rw [List.map_map] at hkeys
      exact .order hsort hkeys
    rcases bind_eq_error.mp hrest with hwrite | ⟨texts, -, hdone⟩
    · obtain ⟨field, hfield, hfails⟩ := exists_error_of_mapM hwrite
      obtain ⟨e, he, rfl⟩ := List.mem_map.mp ((perm_of_arrange hfields).mem_iff.mp hfield)
      rcases bind_eq_error.mp hfails with hkey | ⟨key, -, hvalue⟩
      · exact .key he (textless_of_plainScalar (keys_own e he) (writeKey_eq_error_iff.mp hkey))
      · rcases bind_eq_error.mp hvalue with hvalue | ⟨text, -, hdone⟩
        · exact .value he (ih e he hvalue)
        · simp [pure, Except.pure] at hdone
    · simp [pure, Except.pure] at hdone

/-- A field has no text if its key or its value has none. -/
theorem exists_error_of_field {key : Scalar} {value : Except Fault String}
    (h : (∃ f, plainScalar key = .error f) ∨ ∃ f, value = .error f) :
    ∃ f, writeField (key, value) = .error f := by
  cases hkey : writeKey key with
  | error f => exact ⟨f, bind_eq_error.mpr (.inl hkey)⟩
  | ok quoted =>
    rcases h with ⟨f, hf⟩ | ⟨f, hf⟩
    · rw [writeKey_eq_error_iff.mpr hf] at hkey
      simp at hkey
    · exact ⟨f, bind_eq_error.mpr (.inr ⟨quoted, hkey, bind_eq_error.mpr (.inl hf)⟩)⟩

/-- A mapping has no text if one of its fields has none. -/
theorem exists_error_of_entry {e : Scalar × Value} (he : e ∈ es)
    (h : ∃ f, writeField (e.1, write style (level + 1) e.2) = .error f) :
    ∃ f, write style level (.mapping es) = .error f := by
  rw [write, writeValues_eq]
  cases harrange : arrange style (es.map fun e => (e.1, write style (level + 1) e.2)) with
  | error f => exact ⟨f, rfl⟩
  | ok fields =>
    have hmem := (perm_of_arrange harrange).mem_iff.mpr (List.mem_map_of_mem he)
    obtain ⟨f, hf⟩ := exists_error_of_mem_mapM hmem h
    exact ⟨f, bind_eq_error.mpr (.inr ⟨fields, rfl, bind_eq_error.mpr (.inl hf)⟩)⟩

/-- Every obstacle stands against a text. -/
theorem exists_error_of_obstacle (h : Obstacle style.sortKeys v f) (level : Nat) :
    ∃ g, write style level v = .error g := by
  induction h generalizing level with
  | scalar textless =>
    exact ⟨_, writeScalar_eq_error_iff.mpr (plainScalar_of_textless textless)⟩
  | item mem _ ih =>
    obtain ⟨g, hg⟩ := exists_error_of_mem_mapM mem (ih (level + 1))
    rw [← writeItems_eq] at hg
    exact ⟨g, bind_eq_error.mpr (.inl hg)⟩
  | key mem textless =>
    exact exists_error_of_entry mem
      (exists_error_of_field (.inl ⟨_, plainScalar_of_textless textless⟩))
  | value mem _ ih =>
    exact exists_error_of_entry mem (exists_error_of_field (.inr (ih (level + 1))))
  | @order es sorts unsortable =>
    refine ⟨.unorderedKeys, bind_eq_error.mpr (.inl ?_)⟩
    rw [writeValues_eq, arrange_eq_error_iff, List.map_map]
    exact ⟨sorts, unsortable, rfl⟩

/-- **A tree has no text if and only if there is an obstacle in it.** -/
theorem exists_write_error_iff (htree : v.IsTree) :
    (∃ f, write style level v = .error f) ↔ ∃ f, Obstacle style.sortKeys v f :=
  ⟨fun ⟨f, h⟩ => ⟨f, obstacle_of_write htree h⟩, fun ⟨_, h⟩ => exists_error_of_obstacle h level⟩

end ApiSchema.Json
