/-
The keywords of a schema and the shape of a node.

Six keywords hold further schemas.  Their order here is the order in which they
are visited, and the shape of a node is decided by its keywords in a fixed
priority: a reference before a combination, a combination before an object, an
object before an array.
-/
import ApiSchema.Value.Entries

namespace ApiSchema

/-- A keyword under which a schema holds further schemas. -/
inductive Slot where
  /-- A mapping from names to schemas. -/
  | properties
  /-- One schema. -/
  | items
  /-- One schema, or a truth value. -/
  | additionalProperties
  /-- An array of schemas. -/
  | oneOf
  /-- An array of schemas. -/
  | anyOf
  /-- An array of schemas. -/
  | allOf
deriving DecidableEq, Repr

namespace Slot

/-- All slots, in the order in which they are visited. -/
def all : List Slot := [properties, items, additionalProperties, oneOf, anyOf, allOf]

/-- The keyword of a slot. -/
def keyword : Slot → String
  | properties => "properties"
  | items => "items"
  | additionalProperties => "additionalProperties"
  | oneOf => "oneOf"
  | anyOf => "anyOf"
  | allOf => "allOf"

/-- The slot holds alternatives in an array. -/
def isCombinator : Slot → Bool
  | oneOf | anyOf | allOf => true
  | _ => false

/-- The slot that a key names. -/
def ofKey? (k : Scalar) : Option Slot := all.find? fun s => k = .str s.keyword

theorem ofKey?_keyword (s : Slot) : ofKey? (.str s.keyword) = some s := by
  cases s <;> decide

theorem mem_all (s : Slot) : s ∈ all := by cases s <;> decide

theorem eq_str_of_ofKey? {k : Scalar} {s : Slot} (h : ofKey? k = some s) : k = .str s.keyword := by
  simpa using List.find?_some h

theorem keyword_inj {s t : Slot} : s.keyword = t.keyword ↔ s = t := by
  cases s <;> cases t <;> decide

end Slot

namespace Keyword

/-- The keyword of a reference. -/
def ref : String := "$ref"

/-- The keyword of the type of instances. -/
def type : String := "type"

/-- The keyword that admits null. -/
def nullable : String := "nullable"

/-- The keyword that names the dialect of a schema. -/
def dialect : String := "$schema"

end Keyword

/-- What a schema node is, by its keywords. -/
inductive Shape where
  /-- It refers to another place. -/
  | reference
  /-- It combines alternatives. -/
  | combinator
  /-- It describes objects. -/
  | object
  /-- It describes arrays. -/
  | array
  /-- It has no subschemas that its keywords announce. -/
  | leaf
  /-- It is not a mapping. -/
  | passthrough
deriving DecidableEq, Repr

namespace Shape

/-- The shape as a word. -/
def text : Shape → String
  | reference => "reference"
  | combinator => "combinator"
  | object => "object"
  | array => "array"
  | leaf => "leaf"
  | passthrough => "passthrough"

end Shape

namespace Entries

/-- The text that a node refers to, if it is a reference. -/
def ref? (es : Entries) : Option String := (get? es Keyword.ref).bind Value.text?

/-- The shape of a node, by keyword priority. -/
def shape (es : Entries) : Shape :=
  if (ref? es).isSome then .reference
  else if Slot.all.any fun s => s.isCombinator && has es s.keyword then .combinator
  else if has es Slot.properties.keyword ||
      (get? es Slot.additionalProperties.keyword).any Value.isMapping then .object
  else if has es Slot.items.keyword then .array
  else .leaf

end Entries

/-- The shape of a value at the place of a schema. -/
def Value.shape : Value → Shape
  | .mapping es => Entries.shape es
  | _ => .passthrough

end ApiSchema
