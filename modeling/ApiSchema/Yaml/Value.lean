/-
The values that nodes stand for.

Merge keys are resolved first: `Node.merged` puts the pairs of the merged
mappings in front of the pairs of their mapping, so that the mapping's own pairs
win.  After that a value is built from each node by its tag.

Several nodes of a document may be faulty, and which fault is reported is fixed:
the parts of a collection are looked at one round later than the collection
itself, the fault of the earliest round wins, and within a round the first one
of the document.
-/
import ApiSchema.Value.Entries
import ApiSchema.Yaml.Base64
import ApiSchema.Yaml.Node
import ApiSchema.Yaml.Number

namespace ApiSchema.Yaml

namespace Node

/-! ### Merge keys -/

/-- The pairs that a merge brings from its value: a mapping, or a sequence of mappings of which the
later ones come first. -/
def mergeSource? : Node → Option (List (Node × Node))
  | scalar _ _ _ => none
  | mapping _ pairs => some pairs
  | sequence _ items => do
    let sources ← items.mapM fun
      | mapping _ pairs => some pairs
      | enclosing _ true => some []
      | _ => none
    return sources.reverse.flatten
  | enclosing _ _ => some []

/-- A key as a merge brings it: the value key is a text there. -/
def asMergedKey (key : Node) : Node := if key.tag = .value then key.withTag .str else key

/-- Pairs with their merges resolved; left as they are if one cannot be. -/
def splice (pairs : List (Node × Node)) : List (Node × Node) :=
  let (merges, own) := pairs.partition fun pair => pair.1.tag = .merge
  match merges.mapM fun pair => pair.2.mergeSource? with
  | some sources => sources.flatten.map (fun (key, value) => (key.asMergedKey, value)) ++ own
  | none => pairs

mutual

/-- The node with its merges resolved, as far as they can be. -/
def merged : Node → Node
  | scalar tag text origin => scalar tag text origin
  | sequence .pairs items => sequence .pairs (mergedSingles items)
  | sequence tag items => sequence tag (mergedItems items)
  | mapping tag pairs => mapping tag (splice (mergedPairs pairs))
  | enclosing anchor isMapping => enclosing anchor isMapping

/-- Items with their merges resolved. -/
def mergedItems : List Node → List Node
  | [] => []
  | item :: items => merged item :: mergedItems items

/-- Items of an array of pairs.  A merge key is no merge in the only pair of a mapping there. -/
def mergedSingles : List Node → List Node
  | [] => []
  | mapping tag pairs :: items => mapping tag (mergedPairs pairs) :: mergedSingles items
  | item :: items => merged item :: mergedSingles items

/-- Pairs whose keys and values have their merges resolved. -/
def mergedPairs : List (Node × Node) → List (Node × Node)
  | [] => []
  | (key, value) :: pairs => (merged key, merged value) :: mergedPairs pairs

end

/-! ### Scalars -/

mutual

/-- The text of a node and its origin: those of a scalar, or of the value under the value key of a
mapping. -/
def text? : Node → Option (String × Nat)
  | scalar _ text origin => some (text, origin)
  | sequence _ _ | enclosing _ _ => none
  | mapping _ pairs => valueKeyText? pairs

/-- The text under the first value key. -/
def valueKeyText? : List (Node × Node) → Option (String × Nat)
  | [] => none
  | (key, value) :: pairs => if key.tag = .value then text? value else valueKeyText? pairs

end

end Node

/-- The value of a fraction of a second in millionths; further digits are dropped. -/
def microseconds (digits : List Char) : Nat :=
  Numeral.ofDigits (digits.take 6 ++ List.replicate (6 - digits.length) '0')

/-- The date or moment that the parts of a timestamp name. -/
def TimestampText.toScalar (t : TimestampText) : Except Fault Scalar :=
  let date : Date :=
    { year := Numeral.ofDigits t.year
      month := Numeral.ofDigits t.month
      day := Numeral.ofDigits t.day }
  match t.time with
  | none => if date.Valid then .ok (.date date) else .error .impossibleScalar
  | some (hour, minute, second, fraction) =>
    let moment : Moment :=
      { date, hour := Numeral.ofDigits hour, minute := Numeral.ofDigits minute
        second := Numeral.ofDigits second, microsecond := microseconds fraction
        offset := t.offset }
    if moment.Valid then .ok (.moment moment) else .error .impossibleScalar

/-- A result whose failures are faults. -/
def orFault {α : Type} : Except Fault α → LexResult α := Except.mapError .fault

/-- The scalar that a text of an origin writes under a tag.  The tags of keys with a meaning of
their own name no data. -/
def readScalar (tag : Tag) (text : String) (origin : Nat) : LexResult Scalar :=
  match tag with
  | .null => .ok .null
  | .bool => match truthWords.lookup (text.map Char.toLower) with
    | some b => .ok (.bool b)
    | none => .error (.fault .unknownTruthValue)
  | .int => (orFault (readInt text.toList)).map .int
  | .float => (orFault (readFloat origin text.toList)).map .float
  | .binary => match decodeBase64? text.toList with
    | some bytes => .ok (.bytes bytes)
    | none => reject .badBinary
  | .timestamp => match timestampText? (dropFinalBreak text.toList) with
    | some t => orFault t.toScalar
    | none => .error (.fault .unknownTimestamp)
  | .str => .ok (.str text)
  | .seq | .pairs | .map | .set => reject .wrongKind
  | .merge => reject (.unknownTag (Tag.standard ++ "merge"))
  | .value => reject (.unknownTag (Tag.standard ++ "value"))
  | .other uri => reject (.unknownTag uri)

/-- The scalar that a node stands for.  A timestamp is looked for in the node itself, never under a
value key. -/
def Node.readScalar (node : Node) (tag : Tag) : LexResult Scalar :=
  match tag, node, node.text? with
  | .other uri, _, _ => reject (.unknownTag uri)
  | .timestamp, .mapping _ _, some _ => .error (.fault .timestampInMapping)
  | tag, _, some (text, origin) => Yaml.readScalar tag text origin
  | _, _, none => reject .wrongKind

/-! ### Values -/

/-- A result, or a failure with the round in which it is noticed. -/
abbrev Ranked := Except (Nat × Failure Malformed)

/-- A failure noticed in that round. -/
def inRound {α : Type} (round : Nat) : LexResult α → Ranked α := Except.mapError (round, ·)

/-- Both results.  Of two failures the one of the earlier round counts, of one round the first. -/
def both {α β : Type} : Ranked α → Ranked β → Ranked (α × β)
  | .ok a, .ok b => .ok (a, b)
  | .error e, .ok _ => .error e
  | .ok _, .error e => .error e
  | .error e, .error f => .error (if f.1 < e.1 then f else e)

/-- The key that a node stands for.  A collection is no key. -/
def buildKey (round : Nat) (node : Node) : Ranked Scalar :=
  inRound round (match node.tag with
    | .seq | .pairs | .map | .set => reject .collectionKey
    | .value => node.readScalar .str
    | tag => node.readScalar tag)

/-- The value of a node that is read as a scalar. -/
def buildScalar (round : Nat) (node : Node) : Ranked Value :=
  match node.tag with
  | .seq | .pairs | .map | .set => inRound (round + 1) (reject .wrongKind)
  | tag => (inRound round (node.readScalar tag)).map .scalar

/-- The set of keys. -/
def setOf (members : List Scalar) : Scalar :=
  .set (members.map Scalar.literal) (members.all Scalar.isWritable)

/-- A collection of pairs whose merges are resolved. -/
def unlessMerging {α : Type} (round : Nat) (pairs : List (Node × Node)) (result : Ranked α) :
    Ranked α :=
  if pairs.any fun pair => pair.1.tag = .merge then inRound round (reject .badMerge) else result

mutual

/-- The value of a node that is looked at in that round. -/
def build (round : Nat) : Node → Ranked Value
  | .sequence .seq items => do
    return .array .list (← buildItems (round + 1) items)
  | .sequence .pairs items => do
    return .array .list (← buildSingles (round + 1) items)
  | .mapping .map pairs => unlessMerging (round + 1) pairs do
    return .mapping (Entries.ofPairs (← buildPairs (round + 1) pairs))
  | .mapping .set pairs => unlessMerging (round + 1) pairs do
    return .scalar (setOf (Entries.keys (Entries.ofPairs (← buildPairs (round + 1) pairs))))
  | .enclosing _ isMapping => .ok (.scalar (.enclosing isMapping))
  | node => buildScalar round node

/-- The values of items. -/
def buildItems (round : Nat) : List Node → Ranked (List Value)
  | [] => .ok []
  | item :: items => do
    let (v, vs) ← both (build round item) (buildItems round items)
    return v :: vs

/-- The tuples of items, each of which has to be a mapping with one pair. -/
def buildSingles (round : Nat) : List Node → Ranked (List Value)
  | [] => .ok []
  | item :: items => do
    let (v, vs) ← both (buildSingle round item) (buildSingles round items)
    return v :: vs

/-- The tuple of key and value of the only pair of a mapping.  The key may be any value. -/
def buildSingle (round : Nat) : Node → Ranked Value
  | .mapping _ [(key, value)] => do
    let (k, v) ← both (build round key) (build round value)
    return .array .tuple [k, v]
  | .enclosing _ true => .ok (.scalar (.enclosing true))
  | _ => inRound round (reject .wrongKind)

/-- The entries of pairs. -/
def buildPairs (round : Nat) : List (Node × Node) → Ranked (List (Scalar × Value))
  | [] => .ok []
  | (key, value) :: pairs => do
    let (entry, rest) ← both (both (buildKey round key) (build round value))
      (buildPairs round pairs)
    return entry :: rest

end

/-- The value that a text writes.  A text without a document is a null. -/
def read (text : String) : LexResult Value := do
  let cs := unifyBreaks text.toList
  if let some c := cs.find? fun c => !isAllowed c then reject (.unprintable c)
  match ← Node.ofText cs with
  | none => return .null
  | some root => (build 0 root.merged).mapError (·.2)

end ApiSchema.Yaml
