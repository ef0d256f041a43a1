/-
Results with a log.

Some steps report what they do.  The report is data: a list of log lines that a
computation leaves beside its result, and that it leaves also when it fails.  A
caller who does not want the log reads `result` alone, and `result_bind` says
that the log never decides a result.  `TracedT` is the same for computations in a
monad, such as one with files.
-/
import ApiSchema.Scalar

namespace ApiSchema

/-- One line of the log. -/
inductive LogLine where
  /-- A document was read. -/
  | loaded (path : String) (schemas : Nat)
  /-- A reference was followed. -/
  | resolved (ref : String)
  /-- A reference was replaced together with the keys beside it. -/
  | droppedKeys (ref : String) (keys : List Scalar)
  /-- A schema is about to be mapped. -/
  | mapping (subject : String)
  /-- A component schema was converted. -/
  | converted (name : String)
deriving DecidableEq, Repr

namespace LogLine

/-- The part of the program that reports the line. -/
def channel : LogLine → String
  | loaded _ _ => "oas_schema_mapper.document_loading.document_loader"
  | resolved _ | droppedKeys _ _ => "oas_schema_mapper.reference_resolution.reference_resolver"
  | mapping _ => "oas_schema_mapper.oas_mapping.json_schema_mapper"
  | converted _ => "oas_schema_mapper.schema_conversion.conversion_use_case"

/-- What the line says. -/
def message : LogLine → String
  | loaded path schemas => s!"Loaded {path} with {schemas} component schemas"
  | resolved ref => s!"Resolved $ref {ref}"
  | droppedKeys ref keys =>
    s!"Dropping keys next to $ref {ref}: [" ++ ", ".intercalate (keys.map Scalar.literal) ++ "]"
  | mapping subject => s!"Mapping {subject} to JSON Schema draft-04"
  | converted name => s!"Converted component schema {name}"

/-- The line as it is printed. -/
def text (line : LogLine) : String := s!"DEBUG {line.channel}: {line.message}"

end LogLine

/-- A result, which may be a failure, and the lines logged on the way to it. -/
structure Traced (ε α : Type) where
  /-- The log, oldest line first. -/
  lines : List LogLine
  /-- The result. -/
  result : Except ε α

namespace Traced

variable {ε α β : Type}

/-- A result without a log. -/
def ofExcept (result : Except ε α) : Traced ε α := ⟨[], result⟩

/-- Logs one line. -/
def note (line : LogLine) : Traced ε Unit := ⟨[line], .ok ()⟩

/-- Fails. -/
def fail (e : ε) : Traced ε α := ⟨[], .error e⟩

/-- Goes on with a successful result; the logs follow each other. -/
def bind (x : Traced ε α) (f : α → Traced ε β) : Traced ε β :=
  match x.result with
  | .ok a => ⟨x.lines ++ (f a).lines, (f a).result⟩
  | .error e => ⟨x.lines, .error e⟩

instance : Monad (Traced ε) where
  pure a := ⟨[], .ok a⟩
  bind := bind

/-- The same computation with its failures renamed. -/
def mapError {δ : Type} (g : ε → δ) (x : Traced ε α) : Traced δ α :=
  ⟨x.lines, x.result.mapError g⟩

@[simp] theorem result_pure (a : α) : (pure a : Traced ε α).result = .ok a := rfl

@[simp] theorem result_ofExcept (r : Except ε α) : (ofExcept r).result = r := rfl

@[simp] theorem result_note (line : LogLine) : (note line : Traced ε Unit).result = .ok () := rfl

@[simp] theorem result_fail (e : ε) : (fail e : Traced ε α).result = .error e := rfl

/-- The log decides no result. -/
@[simp] theorem result_bind (x : Traced ε α) (f : α → Traced ε β) :
    (x >>= f).result = x.result >>= fun a => (f a).result := by
  rcases x with ⟨lines, _ | a⟩ <;> rfl

private theorem traced_id_map (x : Traced ε α) : id <$> x = x := by
  rcases x with ⟨lines, _ | a⟩
  · rfl
  · show (⟨lines ++ [], .ok a⟩ : Traced ε α) = _
    rw [List.append_nil]

private theorem traced_bind_assoc {γ : Type} (x : Traced ε α) (f : α → Traced ε β)
    (g : β → Traced ε γ) : x >>= f >>= g = x >>= fun a => f a >>= g := by
  rcases x with ⟨lines, _ | a⟩
  · rfl
  · show bind (bind _ f) g = bind _ fun a => bind (f a) g
    rcases h : f a with ⟨more, _ | b⟩ <;> simp [bind, h]

instance : LawfulMonad (Traced ε) :=
  LawfulMonad.mk' _ traced_id_map (fun _ _ => rfl) traced_bind_assoc

end Traced

/-- A computation in `m` with a traced result. -/
def TracedT (ε : Type) (m : Type → Type) (α : Type) : Type := m (Traced ε α)

namespace TracedT

variable {ε α β : Type} {m : Type → Type} [Monad m]

/-- The computation itself. -/
def run (x : TracedT ε m α) : m (Traced ε α) := x

/-- A traced result that needs no computation. -/
def ofTraced (t : Traced ε α) : TracedT ε m α := (pure t : m (Traced ε α))

/-- A computation without a log. -/
def ofExceptT (x : ExceptT ε m α) : TracedT ε m α :=
  (Traced.ofExcept <$> x.run : m (Traced ε α))

/-- Goes on with a successful result; the logs follow each other. -/
def bind (x : TracedT ε m α) (f : α → TracedT ε m β) : TracedT ε m β :=
  (do
    let t ← x.run
    match t.result with
    | .ok a =>
      let u ← (f a).run
      return ⟨t.lines ++ u.lines, u.result⟩
    | .error e => return ⟨t.lines, .error e⟩ : m (Traced ε β))

instance : Monad (TracedT ε m) where
  pure a := ofTraced (pure a)
  bind := bind

/-- Logs one line. -/
def note (line : LogLine) : TracedT ε m Unit := ofTraced (.note line)

/-- Fails. -/
def fail (e : ε) : TracedT ε m α := ofTraced (.fail e)

/-- The same computation with its failures renamed. -/
def mapError {δ : Type} (g : ε → δ) (x : TracedT ε m α) : TracedT δ m α :=
  (Traced.mapError g <$> x.run : m (Traced δ α))

end TracedT

end ApiSchema
