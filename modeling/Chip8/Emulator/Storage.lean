import Chip8.Emulator.Basic
import Chip8.Files
import Chip8.Machine.Snapshot

/-!
# Programs and snapshots in files

Programs are files of raw bytes, loaded as they are. Snapshots can be taken and restored as bytes
or as files. Paths are put into their normal form before anything else is done with them.
-/

namespace Chip8.Emulator

open Chip8.Text

inductive ProgramFileError
  /-- There can be no file with this path. -/
  | zeroInPath
  | notLoaded (e : LoadError)
  deriving DecidableEq, Repr

def ProgramFileError.message : ProgramFileError → String
  | zeroInPath => FileError.zeroInPath.message
  | notLoaded e => e.message

def loadFile (e : Emulator) (files : Files) (path : String) : Except ProgramFileError Emulator :=
  let path := normalPath path
  match files.read path with
  | .ok program => (e.loadProgram program).mapError .notLoaded
  | .error .zeroInPath => .error .zeroInPath
  | .error err => .error (.notLoaded (.unreadable path err.reason))

/-! ## Snapshots -/

def snapshot (e : Emulator) : List UInt8 := e.machine.snapshot

/-- Restore a snapshot, or leave the machine as it was. Counters, program and debugger are not
part of a snapshot. -/
def restore (e : Emulator) (raw : List UInt8) : Emulator × Except SnapshotError Unit :=
  let (m, r) := e.machine.restore raw
  (e.withMachine m, r)

inductive SnapshotFileError
  | notFound (path : String)
  | unreadable (e : FileError)
  | bad (e : SnapshotError)
  deriving DecidableEq, Repr

def SnapshotFileError.message : SnapshotFileError → String
  | notFound path => s!"Snapshot file not found: {path}"
  | unreadable e => e.message
  | bad e => e.message

def saveSnapshot (e : Emulator) (files : Files) (path : String) : Except FileError Files :=
  files.write (normalPath path) e.snapshot

/-- Restore the snapshot in a file. Where a path is too long nobody can tell whether there is a
file. -/
def loadSnapshot (e : Emulator) (files : Files) (path : String) :
    Emulator × Except SnapshotFileError Unit :=
  let path := normalPath path
  match files.find path with
  | .error (.tooLong p) => (e, .error (.unreadable (.tooLong p)))
  | .error _ => (e, .error (.notFound path))
  | .ok _ =>
    match files.read path with
    | .error err => (e, .error (.unreadable err))
    | .ok raw =>
      let (e, r) := e.restore raw
      (e, r.mapError .bad)

end Chip8.Emulator
