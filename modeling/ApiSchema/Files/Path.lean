/-
Paths of files.

A path is its parts between slashes, below a root or below the working
directory.  Empty parts and parts that are a single dot say nothing and are
dropped; a part of two dots is kept, because what it leads to is for the file
system to say.
-/
import ApiSchema.Text.Pieces

namespace ApiSchema

/-- A path of a file or directory. -/
structure Path where
  /-- The slashes in front: none below the working directory. -/
  root : String
  /-- The names on the way, none of which is empty or a single dot. -/
  parts : List String
deriving DecidableEq, Repr

namespace Path

/-- The root that the slashes in front of a path stand for.  Exactly two are kept. -/
def rootOf (slashes : Nat) : String :=
  match slashes with
  | 0 => ""
  | 2 => "//"
  | _ => "/"

/-- The names between the slashes. -/
def names (cs : List Char) : List String :=
  ((Text.pieces '/' cs).map String.ofList).filter fun part => part ≠ "" ∧ part ≠ "."

/-- The path that a text writes. -/
def ofText (text : String) : Path :=
  let cs := text.toList
  ⟨rootOf (cs.takeWhile (· = '/')).length, names cs⟩

/-- The text of a path. -/
def text (p : Path) : String :=
  if p.root.isEmpty && p.parts.isEmpty then "." else p.root ++ "/".intercalate p.parts

/-- The path of a name below a directory. -/
def child (p : Path) (name : String) : Path := { p with parts := p.parts ++ [name] }

/-- The path holds a zero character, which no file system takes. -/
def hasZero (p : Path) : Bool := p.text.toList.contains '\x00'

example : (ofText "./a//b/../c/").text = "a/b/../c" := by decide +kernel

example : (ofText "").text = "." := by decide +kernel

end Path

end ApiSchema
