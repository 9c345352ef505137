import Chip8.Path
import Chip8.Text.Quoted

/-!
# Files

The files that a host works with, by the places where they stand. A path is gone along part by
part: every part but the last has to lead to a directory, and no part and no path may be too long.
Lengths are counted in bytes.

Only reading and writing of whole files is needed. Each way in which they fail has a text of its
own, and those that the system reports have a number too.
-/

namespace Chip8

open Chip8.Text

inductive Entry
  | file (bytes : List UInt8)
  | directory
  deriving DecidableEq, Repr

inductive FileError
  | missing (path : String)
  | notDirectory (path : String)
  | isDirectory (path : String)
  | tooLong (path : String)
  /-- A path with a zero character, which the system is not even asked for. -/
  | zeroInPath
  deriving DecidableEq, Repr

namespace FileError

/-- What went wrong, without the path. -/
def reason : FileError → String
  | missing _ => "No such file or directory"
  | notDirectory _ => "Not a directory"
  | isDirectory _ => "Is a directory"
  | tooLong _ => "File name too long"
  | zeroInPath => "embedded null byte"

def message (e : FileError) : String :=
  match e with
  | missing p => s!"[Errno 2] {e.reason}: {quoted p}"
  | notDirectory p => s!"[Errno 20] {e.reason}: {quoted p}"
  | isDirectory p => s!"[Errno 21] {e.reason}: {quoted p}"
  | tooLong p => s!"[Errno 36] {e.reason}: {quoted p}"
  | zeroInPath => e.reason

end FileError

def maxPartSize : Nat := 255

def maxPathSize : Nat := 4095

/-- The files and directories that are there, besides the directories that are always there. -/
structure Files where
  entries : List (Place × Entry)

namespace Files

def empty : Files := ⟨[]⟩

def entryAt (f : Files) (p : Place) : Option Entry :=
  if p.isBase then some .directory else f.entries.lookup p

def put (f : Files) (p : Place) (entry : Entry) : Files :=
  ⟨(p, entry) :: f.entries.filter fun e => e.1 ≠ p⟩

/-- The directories around a place, where nothing stands yet. -/
def putParents (f : Files) (fromRoot : Bool) : List String → Files
  | [] => f
  | _ :: names =>
    let f := f.putParents fromRoot names
    if (f.entryAt ⟨fromRoot, names⟩).isSome then f else f.put ⟨fromRoot, names⟩ .directory

def putAll (f : Files) (files : List (String × List UInt8)) : Files :=
  files.foldl (fun f (path, bytes) =>
      let p := Place.ofPath path
      (f.putParents p.fromRoot p.names).put p (.file bytes)) f

/-! ## Going along paths -/

def follow (f : Files) (path : String) (p : Place) : List String → Except FileError Place
  | [] => .ok p
  | part :: rest =>
    match f.entryAt p with
    | none => .error (.missing path)
    | some (.file _) => .error (.notDirectory path)
    | some .directory =>
      if maxPartSize < part.utf8ByteSize then .error (.tooLong path)
      else f.follow path (p.next part) rest

/-- The place that a path leads to, whether or not something stands there. -/
def locate (f : Files) (path : String) : Except FileError Place :=
  if path.toList.contains '\x00' then .error .zeroInPath
  else if maxPathSize < path.utf8ByteSize then .error (.tooLong path)
  else if path.isEmpty then .error (.missing path)
  else f.follow path (.start path) (pathParts path)

def find (f : Files) (path : String) : Except FileError Entry := do
  match f.entryAt (← f.locate path) with
  | some entry => return entry
  | none => throw (.missing path)

/-- What stands at the end of a path as it was given. One that ends in a slash, or in a dot behind
a slash, asks for a directory. -/
def look (f : Files) (path : String) : Except FileError Entry := do
  match ← f.find path with
  | .directory => return .directory
  | .file bytes =>
    if path.endsWith "/" || path.endsWith "/." then throw (.notDirectory path)
    else return .file bytes

/-! ## Reading and writing -/

def read (f : Files) (path : String) : Except FileError (List UInt8) := do
  match ← f.find path with
  | .file bytes => return bytes
  | .directory => throw (.isDirectory path)

/-- The place where a file can be written: there is a directory for it and none in its place. -/
def target (f : Files) (path : String) : Except FileError Place := do
  let p ← f.locate path
  match f.entryAt p with
  | some .directory => throw (.isDirectory path)
  | _ => return p

def write (f : Files) (path : String) (bytes : List UInt8) : Except FileError Files := do
  return f.put (← f.target path) (.file bytes)

theorem entryAt_put {f : Files} {p : Place} {entry : Entry} (h : p.isBase = false) :
    (f.put p entry).entryAt p = some entry := by
  simp [put, entryAt, h]

/-- A place that a file was written to held no directory. -/
theorem entryAt_of_target {f : Files} {path : String} {p : Place} (h : f.target path = .ok p) :
    f.entryAt p ≠ some .directory := by
  unfold target at h
  cases e : f.locate path with
  | error err => simp [e, bind, Except.bind] at h
  | ok q =>
    simp only [e, bind, Except.bind] at h
    split at h
    · exact absurd h (by simp [throw, throwThe, MonadExceptOf.throw])
    · rename_i other
      obtain rfl : q = p := by simpa [pure, Except.pure] using h
      exact other

end Files

end Chip8
