/-!
# Paths

A path is a text whose parts stand between slashes. Empty parts and parts that are a single dot
stand for nothing; the normal form of a path leaves them out. A part of two dots leads to the
directory around the one before it.

Where a path leads is a place: a way from the root or from the working directory in which no step
is taken back. What lies around the working directory has no name here, so a way out of it starts
with as many pairs of dots as it goes up.
-/

namespace Chip8

/-- The parts of a path that stand for something. -/
def pathParts (path : String) : List String :=
  (path.splitOn "/").filter fun p => p != "" && p != "."

/-- What a path starts with: two slashes stay two, any other number of them is one. -/
def pathRoot (path : String) : String :=
  match path.toList with
  | '/' :: '/' :: '/' :: _ => "/"
  | '/' :: '/' :: _ => "//"
  | '/' :: _ => "/"
  | _ => ""

def joinPath (root : String) (parts : List String) : String :=
  if root == "" && parts.isEmpty then "." else root ++ "/".intercalate parts

def normalPath (path : String) : String := joinPath (pathRoot path) (pathParts path)

def baseName (path : String) : String := (pathParts path).getLastD ""

/-! ## Places -/

structure Place where
  /-- Whether the way starts at the root and not at the working directory. -/
  fromRoot : Bool
  /-- The names on the way, the last first. -/
  names : List String
  deriving DecidableEq, Repr

namespace Place

def up : String := ".."

/-- The directory around a place. The root has none and stands in for it. -/
def parent (p : Place) : Place :=
  match p.names with
  | [] => if p.fromRoot then p else { p with names := [up] }
  | name :: rest =>
    if name = up then { p with names := up :: p.names } else { p with names := rest }

def next (p : Place) (part : String) : Place :=
  if part = up then p.parent else { p with names := part :: p.names }

def start (path : String) : Place := ⟨path.startsWith "/", []⟩

/-- Where a path leads if all directories on its way are there. -/
def ofPath (path : String) : Place := (pathParts path).foldl next (start path)

/-- Whether a place is a directory by what it is: the root, the working directory or one of those
around it. -/
def isBase (p : Place) : Bool := p.names.all fun name => name == up

def isInside (p : Place) : Bool := !p.fromRoot && !p.names.contains up

def path (p : Place) : String := "/".intercalate p.names.reverse

theorem parent_next {p : Place} {part : String} (h : part ≠ up) : (p.next part).parent = p := by
  simp [next, parent, h]

end Place

end Chip8
