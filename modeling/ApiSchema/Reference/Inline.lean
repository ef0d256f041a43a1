/-
Replacing references by their targets.

Every reference node of a schema gives way to the value it names, whose own
references are replaced in turn.  The chain of references being expanded is
carried along, and a reference that is on the chain already is circular.

No reference is ever expanded inside itself, so a chain holds distinct texts,
all of them found in the schema or the document.  There are only so many, and
their number bounds the depth of the expansion: `inline` takes its budget from
`Value.refTexts`.
-/
import ApiSchema.Fault
import ApiSchema.Reference.Resolve
import ApiSchema.Schema.Walk
import ApiSchema.Trace

namespace ApiSchema

namespace Value

mutual

/-- The texts that stand under `$ref` anywhere in a value, also outside of schemas. -/
def refTexts : Value → List String
  | .scalar _ => []
  | .array _ items => itemsRefTexts items
  | .mapping es => entriesRefTexts es

/-- The reference texts of items. -/
def itemsRefTexts : List Value → List String
  | [] => []
  | v :: vs => refTexts v ++ itemsRefTexts vs

/-- The reference texts of entries. -/
def entriesRefTexts : List (Scalar × Value) → List String
  | [] => []
  | (k, v) :: rest =>
    (if k = .str Keyword.ref then v.text?.toList else []) ++ (refTexts v ++ entriesRefTexts rest)

end

end Value

/-- The keys beside a reference, in ascending order. -/
def siblingKeys (es : Entries) : Except Fault (List Scalar) :=
  let keys := (Entries.keys es).filter fun k => k ≠ .str Keyword.ref
  match Scalar.sortByKey (keys.map fun k => (k, ())) with
  | some sorted => .ok (sorted.map (·.1))
  | none => .error .unorderedKeys

/-- Logs the keys that are lost when a reference node is replaced. -/
def noteSiblings (ref : String) (es : Entries) : Traced (Failure ReferenceError) Unit :=
  if es.length ≤ 1 then pure ()
  else match siblingKeys es with
    | .ok keys => .note (.droppedKeys ref keys)
    | .error fault => .fail (.fault fault)

/-- Follows a reference and logs it. -/
def resolveLogged (document : Value) (areas : List String) (ref : String) :
    Traced (Failure ReferenceError) Value := do
  let target ← (Traced.ofExcept (resolveText document areas ref)).mapError .error
  Traced.note (.resolved ref)
  return target

/-- Replaces references while those of `chain` are being expanded.  Each level of expansion takes
one unit of the budget. -/
def inlineWithin (document : Value) (areas : List String) :
    Nat → List String → Value → Traced (Failure ReferenceError) Value
  | 0, chain, _ => .fail (.error (.circular chain))
  | budget + 1, chain, v => v.walkM fun es =>
    match Entries.ref? es with
    | none => return .mapping es
    | some ref =>
      if ref ∈ chain then .fail (.error (.circular (chain ++ [ref])))
      else do
        noteSiblings ref es
        let target ← resolveLogged document areas ref
        inlineWithin document areas budget (chain ++ [ref]) target

/-- A budget that no expansion exceeds: one more than there are different reference texts. -/
def inlineBudget (document v : Value) : Nat :=
  (v.refTexts ++ document.refTexts).eraseDups.length + 1

/-- The schema with every reference node replaced by its target. -/
def inline (document : Value) (areas : List String) (v : Value) :
    Traced (Failure ReferenceError) Value :=
  inlineWithin document areas (inlineBudget document v) [] v

end ApiSchema
