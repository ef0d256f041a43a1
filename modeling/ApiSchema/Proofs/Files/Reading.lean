/-
Values that are read from files.

A file gives a value in three steps: it is there, it is UTF-8, and a loader has a value
for its text.  What goes wrong in the first step is an error of the file, and so is a
text that the loader rejects.  Two things are not: bytes that are no text, and a text
for which the loader has no error of its own (`FileFault`).

Nothing stands at a path with a zero character, so such a path is found missing before
anything refuses to take it.
-/
import ApiSchema.Proofs.Files.Run

namespace ApiSchema

/-! ### Texts of paths -/

namespace Path

theorem mem_pieces {separator c : Char} (hc : c ≠ separator) (cs : List Char) :
    (∃ piece ∈ Text.pieces separator cs, c ∈ piece) ↔ c ∈ cs := by
  induction cs with
  | nil => simp [Text.pieces]
  | cons d cs ih =>
    rw [Text.pieces, List.mem_cons, ← ih]
    split
    · next hd => simp [hd, hc]
    · split
      · next piece rest heq => simp [heq, or_assoc]
      · next heq => exact absurd heq (Text.pieces_ne_nil separator cs)

/-- A path holds a zero character if its text does. -/
theorem hasZero_ofText {text : String} : (ofText text).hasZero = true ↔ '\x00' ∈ text.toList := by
  have hroot (slashes : Nat) : '\x00' ∉ (rootOf slashes).toList := by
    unfold rootOf
    split <;> decide
  have hofText : '\x00' ∉ (ofText text).root.toList := hroot _
  rw [hasZero_iff, or_iff_right hofText, ← mem_pieces (by decide : '\x00' ≠ '/')]
  simp only [ofText, names, List.mem_filter, List.mem_map]
  constructor
  · rintro ⟨_, ⟨⟨piece, hpiece, rfl⟩, -⟩, hzero⟩
    exact ⟨piece, hpiece, by simpa using hzero⟩
  · rintro ⟨piece, hpiece, hzero⟩
    refine ⟨String.ofList piece, ⟨⟨piece, hpiece, rfl⟩, ?_⟩, by simpa using hzero⟩
    have hne (name : String) (hname : '\x00' ∉ name.toList) : String.ofList piece ≠ name := by
      rintro rfl
      exact hname (by simpa using hzero)
    simp [hne "" (by decide), hne "." (by decide)]

end Path

/-! ### Faults of files -/

/-- The file at the path holds bytes that are no text, or a text for which the loader has no error
of its own. -/
def FileFault [Loader] (s : Store) (p : Path) (f : Fault) : Prop :=
  p.hasZero = false ∧ ∃ bytes, s.read p = .ok bytes ∧
    (String.fromUTF8? bytes = none ∧ f = .notUtf8 ∨
      ∃ text, String.fromUTF8? bytes = some text ∧ Loader.load text = .error (.fault f))

variable {s t : Store} {p : Path} {bytes : ByteArray} {f : Fault} {v : Value}

/-- What can be read is there. -/
theorem Store.present_of_read (h : s.read p = .ok bytes) : s.present p = .ok true := by
  obtain ⟨place, hplace, hfile⟩ := bind_eq_ok.mp h
  rw [present, hplace]
  cases hat : s.at? place with
  | none => simp [hat, throw, throwThe, MonadExceptOf.throw] at hfile
  | some entry => simp [hat]

namespace Yields

theorem isPresent_iff {r : Except (Failure Refusal) Bool} :
    Yields (FileSystem.isPresent p) s r t ↔ t = s ∧
      r = if p.hasZero then .ok false else
        (s.present p).mapError fun cause => .error ⟨cause, p⟩ := by
  rw [FileSystem.isPresent]
  cases p.hasZero with
  | true => simp [pure_iff, and_comm]
  | false =>
    rw [if_neg (by decide), if_neg (by decide), attempt_iff, and_comm]
    rfl

theorem read_iff {r : Except (Failure Refusal) ByteArray} :
    Yields (FileSystem.attempt p FileSystem.read) s r t ↔
      r = (s.read p).mapError (fun cause => .error ⟨cause, p⟩) ∧ t = s := attempt_iff

/-- The text of a file is its bytes, if they are UTF-8. -/
theorem readText_iff (hzero : p.hasZero = false) {r : Except (Failure Refusal) String} :
    Yields (FileSystem.readText p) s r t ↔ t = s ∧
      ((∃ cause, s.read p = .error cause ∧ r = .error (.error ⟨cause, p⟩)) ∨
        ∃ bytes, s.read p = .ok bytes ∧
          (String.fromUTF8? bytes = none ∧ r = .error (.fault .notUtf8) ∨
            ∃ text, String.fromUTF8? bytes = some text ∧ r = .ok text)) := by
  rw [FileSystem.readText, checkZero_bind_iff, bind_iff]
  simp only [hzero, Bool.false_eq_true, false_and, false_or, true_and, read_iff]
  cases s.read p with
  | error cause => simp [and_comm]
  | ok bytes =>
    cases hbytes : String.fromUTF8? bytes with
    | some text => simp [hbytes, pure_iff, and_comm]
    | none => simp [hbytes, throw_iff, and_comm]

/-- **A file ends the program** if it is no text, or if the loader has no error for its text. -/
theorem readFile_fault_iff [Loader] :
    Yields (Loader.readFile p) s (.error (.fault f)) t ↔ FileFault s p f ∧ t = s := by
  rw [Loader.readFile, bind_iff]
  constructor
  · rintro (⟨e, he, hpresent⟩ | ⟨there, u, hpresent, hrest⟩)
    · obtain rfl := Except.error.inj he
      obtain ⟨-, hpresent⟩ := isPresent_iff.mp (adapt_fault_iff.mp hpresent)
      split at hpresent
      · simp at hpresent
      · obtain ⟨cause, -, hcause⟩ := mapError_eq_error.mp hpresent.symm
        simp at hcause
    obtain ⟨rfl, hpresent⟩ := isPresent_iff.mp (adapt_ok_iff.mp hpresent)
    cases there with
    | false => simp [throw_iff] at hrest
    | true =>
      have hzero : p.hasZero = false := by
        cases hzero : p.hasZero <;> simp_all
      rcases bind_iff.mp hrest with ⟨e, he, htext⟩ | ⟨text, w, htext, hload⟩
      · obtain rfl := Except.error.inj he
        obtain ⟨rfl, ⟨cause, -, hfails⟩ | ⟨bytes, hbytes, ⟨hnone, hfails⟩ | ⟨text, -, hfails⟩⟩⟩ :=
          (readText_iff hzero).mp (adapt_fault_iff.mp htext)
        · simp at hfails
        · exact ⟨⟨hzero, bytes, hbytes, .inl ⟨hnone, by simpa using hfails⟩⟩, rfl⟩
        · simp at hfails
      · obtain ⟨rfl, ⟨cause, -, hfails⟩ | ⟨bytes, hbytes, ⟨-, hfails⟩ | ⟨text', hsome, hok⟩⟩⟩ :=
          (readText_iff hzero).mp (adapt_ok_iff.mp htext)
        · simp at hfails
        · simp at hfails
        obtain rfl := Except.ok.inj hok
        obtain ⟨hr, rfl⟩ := mk_pure_iff.mp hload
        obtain ⟨failure, hfailure, hfault⟩ := mapError_eq_error.mp hr.symm
        rw [map_eq_fault] at hfault
        rw [hfault] at hfailure
        exact ⟨⟨hzero, bytes, hbytes, .inr ⟨text, hsome, hfailure⟩⟩, rfl⟩
  · rintro ⟨⟨hzero, bytes, hread, hcause⟩, rfl⟩
    have hpresent : Yields ((FileSystem.isPresent p).adapt (Failure.map FileError.refused)) t
        (.ok true) t :=
      adapt_ok_iff.mpr (isPresent_iff.mpr ⟨rfl, by simp [hzero, Store.present_of_read hread]⟩)
    refine .inr ⟨true, t, hpresent, ?_⟩
    rcases hcause with ⟨hnone, rfl⟩ | ⟨text, hsome, hload⟩
    · have htext := (readText_iff hzero).mpr ⟨rfl, .inr ⟨bytes, hread, .inl ⟨hnone, rfl⟩⟩⟩
      exact bind_of_error (adapt_fault_iff.mpr htext)
    · have htext := (readText_iff hzero).mpr ⟨rfl, .inr ⟨bytes, hread, .inr ⟨text, hsome, rfl⟩⟩⟩
      refine bind_of_ok (adapt_ok_iff.mpr htext) (mk_pure_iff.mpr ⟨?_, rfl⟩)
      rw [hload]
      rfl

/-- A value is read from a path that files can have. -/
theorem hasZero_of_readFile [Loader] (h : Yields (Loader.readFile p) s (.ok v) t) :
    p.hasZero = false := by
  obtain ⟨there, u, hpresent, hrest⟩ := exists_of_bind_ok h
  obtain ⟨rfl, hpresent⟩ := isPresent_iff.mp (adapt_ok_iff.mp hpresent)
  cases there with
  | false => simp [throw_iff] at hrest
  | true => cases hzero : p.hasZero <;> simp_all

end Yields

end ApiSchema
