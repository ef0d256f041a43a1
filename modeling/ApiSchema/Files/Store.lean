/-
Files in memory.

A store maps locations to entries.  A location is the list of names from the
root, so it holds no dots; `locate` finds the location that a path leads to,
through directories that have to exist.  Every operation is a function on stores,
and a refused one leaves its store as it was.

The tree is all that there is: hard and symbolic links, permissions and a disk
that is full are left out.  So a file stands at one location only, and whatever
leads to a place can be read and written there.
-/
import ApiSchema.Files.FileSystem

namespace ApiSchema

/-- The names that lead from the root to a place. -/
abbrev Location := List String

/-- What stands at a place. -/
inductive Entry where
  /-- A file, by its bytes. -/
  | file (bytes : ByteArray)
  /-- A directory. -/
  | directory

/-- A tree of files and the directory in which the program works. -/
structure Store where
  /-- The working directory. -/
  home : Location
  /-- What stands where, below the root. -/
  entries : List (Location × Entry)

namespace Store

/-! ### Entries -/

/-- What stands at a location.  The root is a directory. -/
def at? (s : Store) (loc : Location) : Option Entry :=
  if loc = [] then some .directory else s.entries.lookup loc

/-- The store with an entry at a location, in place of what stands there. -/
def put (s : Store) (loc : Location) (e : Entry) : Store :=
  { s with entries := (loc, e) :: s.entries.filter fun entry => entry.1 ≠ loc }

/-- The store without what stands at a location. -/
def erase (s : Store) (loc : Location) : Store :=
  { s with entries := s.entries.filter fun entry => entry.1 ≠ loc }

private theorem lookup_filter_ne {loc other : Location} (h : other ≠ loc)
    (es : List (Location × Entry)) :
    (es.filter fun entry => entry.1 ≠ loc).lookup other = es.lookup other := by
  induction es with
  | nil => rfl
  | cons e es ih =>
    obtain ⟨l, x⟩ := e
    by_cases hl : l = loc
    · subst hl
      simp only [ne_eq, not_true, decide_false, Bool.false_eq_true, not_false_eq_true,
        List.filter_cons_of_neg, List.lookup_cons]
      rw [ih, beq_eq_false_iff_ne.2 h]
    · simp only [ne_eq, hl, not_false_eq_true, decide_true, List.filter_cons_of_pos,
        List.lookup_cons, ih]

theorem at?_put_self (s : Store) {loc : Location} (e : Entry) (h : loc ≠ []) :
    (s.put loc e).at? loc = some e := by
  simp [at?, put, h]

theorem at?_put_of_ne (s : Store) {loc other : Location} (e : Entry) (h : other ≠ loc) :
    (s.put loc e).at? other = s.at? other := by
  by_cases ho : other = []
  · simp [at?, ho]
  · simp only [at?, put, if_neg ho, List.lookup_cons, beq_eq_false_iff_ne.2 h]
    exact lookup_filter_ne h s.entries

theorem at?_erase_of_ne (s : Store) {loc other : Location} (h : other ≠ loc) :
    (s.erase loc).at? other = s.at? other := by
  by_cases ho : other = []
  · simp [at?, ho]
  · simp only [at?, erase, if_neg ho]
    exact lookup_filter_ne h s.entries

/-! ### Paths -/

/-- The longest name of a file, in bytes. -/
def maxName : Nat := 255

/-- The number of bytes that a path has to stay below. -/
def pathLimit : Nat := 4096

/-- The location that names lead to from a location.  Each name is looked up in a directory. -/
def walk (s : Store) (loc : Location) : List String → Except RefusalCause Location
  | [] => .ok loc
  | name :: names =>
    match s.at? loc with
    | none => .error .missing
    | some (.file _) => .error .notDirectory
    | some .directory =>
      if name = ".." then walk s loc.dropLast names
      else if maxName < name.utf8ByteSize then .error .nameTooLong
      else walk s (loc ++ [name]) names

/-- Where a path starts. -/
def start (s : Store) (p : Path) : Location := if p.root.isEmpty then s.home else []

/-- The location that a path leads to.  Its directories exist; nothing need stand there itself. -/
def locate (s : Store) (p : Path) : Except RefusalCause Location :=
  if pathLimit ≤ p.text.utf8ByteSize then .error .nameTooLong
  else s.walk (s.start p) p.parts

/-- The location that names write, whether anything exists or not. -/
def follow (loc : Location) (names : List String) : Location :=
  names.foldl (fun loc name => if name = ".." then loc.dropLast else loc ++ [name]) loc

/-- The absolute text of a location. -/
def textOf (loc : Location) : String := "/" ++ "/".intercalate loc

/-! ### Operations -/

/-- Whether anything stands at a path.  A path through a missing directory leads to nothing. -/
def present (s : Store) (p : Path) : Except RefusalCause Bool :=
  match s.locate p with
  | .ok loc => .ok (s.at? loc).isSome
  | .error .missing | .error .notDirectory => .ok false
  | .error cause => .error cause

/-- A directory stands at the path. -/
def isDirectory (s : Store) (p : Path) : Bool :=
  match s.locate p with
  | .ok loc => match s.at? loc with
    | some .directory => true
    | _ => false
  | .error _ => false

/-- The bytes of a file. -/
def read (s : Store) (p : Path) : Except RefusalCause ByteArray := do
  match s.at? (← s.locate p) with
  | some (.file bytes) => return bytes
  | some .directory => throw .isDirectory
  | none => throw .missing

/-- The store with a new directory. -/
def createDirectory (s : Store) (p : Path) : Except RefusalCause Store := do
  let loc ← s.locate p
  match s.at? loc with
  | some _ => throw .present
  | none => return s.put loc .directory

/-- The store with a file that holds the bytes. -/
def write (s : Store) (p : Path) (bytes : ByteArray) : Except RefusalCause Store := do
  let loc ← s.locate p
  match s.at? loc with
  | some .directory => throw .isDirectory
  | _ => return s.put loc (.file bytes)

/-- The store without a file. -/
def remove (s : Store) (p : Path) : Except RefusalCause Store := do
  let loc ← s.locate p
  match s.at? loc with
  | some (.file _) => return s.erase loc
  | some .directory => throw .isDirectory
  | none => throw .missing

/-- The absolute text of a path. -/
def resolve (s : Store) (p : Path) : String := textOf (follow (s.start p) p.parts)

/-- Goes over to the new store, if there is one. -/
def change (f : Store → Except RefusalCause Store) : StateM Store (Except RefusalCause Unit) :=
  fun s => match f s with
    | .ok t => (.ok (), t)
    | .error cause => (.error cause, s)

instance : FileSystem (StateM Store) where
  present p := return (← get).present p
  isDirectory p := return (← get).isDirectory p
  read p := return (← get).read p
  createDirectory p := change (·.createDirectory p)
  write p bytes := change (·.write p bytes)
  resolve p := return (← get).resolve p

end Store

end ApiSchema
