import Chip8.Command.Disassemble
import Chip8.Command.Play

/-!
# The command line

The first word of the command line is the name of a tool, the others belong to that tool. Here the
files that a command line mentions are read, and the answer of the tool is printed and written.
-/

namespace Chip8.Command

def readEntry (path : String) : IO (Option Entry) := do
  try
    let bytes ← IO.FS.readBinFile path
    return some (.file bytes.toList)
  catch
    | .inappropriateType .. => return some .directory
    | _ => return none

def readAlong (path : String) : IO (List (Place × Entry)) := do
  let parts := pathParts path
  let steps := (List.range parts.length).map fun k => joinPath (pathRoot path) (parts.take (k + 1))
  steps.filterMapM fun step => do
    return (← readEntry step).map fun entry => (Place.ofPath step, entry)

/-- The files at some paths, as far as they are there. -/
def readFiles (paths : List String) : IO Files := do
  return ⟨(← paths.mapM readAlong).flatten⟩

/-- The paths that a command line may mean: its arguments and the values of its options. -/
def mentioned {κ : Type} (opts : List (Opt κ)) (words : List String) : List String :=
  match readWords opts words with
  | .ok g => g.arguments ++ (g.options.map Prod.snd).filter fun s => s != ""
  | .error _ => []

def contentBytes : Content → ByteArray
  | .text s => s.toUTF8
  | .image i => ⟨i.toPng.toArray⟩

/-- Print and write an answer; the result is the exit code. -/
def deliver (tool : String) : Outcome → IO UInt32
  | .usage => do
    (← IO.getStderr).putStrLn s!"Usage: {tool} [OPTIONS] FILE"
    return 2
  | .badPath e => do
    (← IO.getStderr).putStrLn e.message
    return 1
  | .report r => do
    if let some (path, content) := r.written then IO.FS.writeBinFile path (contentBytes content)
    (← IO.getStderr).putStr r.err
    (← IO.getStdout).putStr r.out
    return UInt32.ofNat r.exitCode

end Chip8.Command

open Chip8.Command in
def main (words : List String) : IO UInt32 := do
  match words with
  | [] => deliver "TOOL" .usage
  | tool :: words =>
    if tool == Play.tool then
      let files ← readFiles (mentioned Play.options words)
      let entropy ← IO.rand 0 4294967295
      deliver tool (Play.answer files words entropy)
    else if tool == Disassemble.tool then
      let files ← readFiles (mentioned Disassemble.options words)
      deliver tool (Disassemble.answer files words)
    else deliver tool .usage
