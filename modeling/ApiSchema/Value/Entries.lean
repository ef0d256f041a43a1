/-
Reading and changing the entries of a mapping.

Keywords are texts, so most access is by name.  `insert` takes any key and
replaces the value in place when the mapping has that key already, keeping the
key as it was first written; `erase` closes the gap.
-/
import ApiSchema.Value.Basic

namespace ApiSchema.Entries

/-- The value under a name. -/
def get? (es : Entries) (name : String) : Option Value :=
  match es with
  | [] => none
  | (k, v) :: rest => if k = .str name then some v else get? rest name

/-- The mapping has the name as a key. -/
def has (es : Entries) (name : String) : Bool := (get? es name).isSome

/-- Puts a value under a key: in place if the mapping has the key, at the end otherwise. -/
def insert (es : Entries) (key : Scalar) (v : Value) : Entries :=
  match es with
  | [] => [(key, v)]
  | (k, w) :: rest => if k.same key then (k, v) :: rest else (k, w) :: insert rest key v

/-- Puts a value under a name: in place if the mapping has the name, at the end otherwise. -/
def set (es : Entries) (name : String) (v : Value) : Entries :=
  match es with
  | [] => [(.str name, v)]
  | (k, w) :: rest => if k = .str name then (k, v) :: rest else (k, w) :: set rest name v

/-- Removes a name. -/
def erase (es : Entries) (name : String) : Entries :=
  es.filter fun e => e.1 ≠ .str name

/-- Entries read one by one: a key seen again overwrites its value. -/
def ofPairs (pairs : List (Scalar × Value)) : Entries :=
  pairs.foldl (fun es (k, v) => insert es k v) []

/-- The keys, in order. -/
def keys (es : Entries) : List Scalar := es.map (·.1)

/-- No key stands twice. -/
def Distinct (es : Entries) : Prop := es.Pairwise fun a b => a.1.same b.1 = false

/-! ### Lookup after a change -/

variable {es : Entries} {name other : String} {v : Value}

@[simp] theorem get?_nil : get? [] name = none := rfl

theorem get?_cons {k : Scalar} {w : Value} :
    get? ((k, w) :: es) name = if k = .str name then some w else get? es name := rfl

@[simp] theorem get?_set_self : get? (set es name v) name = some v := by
  induction es with
  | nil => simp [set, get?]
  | cons e rest ih => by_cases h : e.1 = .str name <;> simp [set, get?, h, ih]

theorem get?_set_of_ne (h : other ≠ name) : get? (set es name v) other = get? es other := by
  induction es with
  | nil => simp [set, get?, Ne.symm h]
  | cons e rest ih =>
    by_cases he : e.1 = .str name
    · simp [set, get?, he, Ne.symm h]
    · simp only [set, if_neg he, get?, ih]

@[simp] theorem get?_erase_self : get? (erase es name) name = none := by
  induction es with
  | nil => rfl
  | cons e rest ih => by_cases h : e.1 = .str name <;> simp_all [erase, get?]

theorem get?_erase_of_ne (h : other ≠ name) : get? (erase es name) other = get? es other := by
  induction es with
  | nil => rfl
  | cons e rest ih =>
    by_cases he : e.1 = .str name
    · simp_all [erase, get?, Ne.symm h]
    · by_cases ho : e.1 = .str other <;> simp_all [erase, get?]

/-- Under a name, `insert` and `set` are the same. -/
theorem insert_str : insert es (.str name) v = set es name v := by
  induction es with
  | nil => rfl
  | cons e rest ih =>
    by_cases h : e.1 = .str name
    · simp [insert, set, h]
    · have : ¬ (e.1.same (.str name) = true) := by simpa using h
      simp only [insert, set, if_neg h, if_neg this, ih]

/-- Putting back what is there changes nothing. -/
theorem set_of_get? (h : get? es name = some v) : set es name v = es := by
  induction es with
  | nil => simp at h
  | cons e rest ih =>
    obtain ⟨k, w⟩ := e
    by_cases hk : k = .str name <;> simp_all [set, get?]

/-- Overwriting keeps the keys and their order. -/
theorem keys_set_of_has (h : has es name = true) : keys (set es name v) = keys es := by
  induction es with
  | nil => simp [has] at h
  | cons e rest ih =>
    by_cases he : e.1 = .str name
    · simp [set, keys, he]
    · simp_all [set, keys, has, get?]

end ApiSchema.Entries
