import Chip8.Command.Options
import Chip8.Image
import Chip8.Text.Control

/-!
# What a tool answers

A tool ends with an exit code, two texts and at most one file that it wrote. Failures of all kinds
end it in one of three ways: something is wrong with a program, with the arguments or files, or
with the tool itself. What a tool says holds no control sequences, whatever names are in it; only
the log shows names as they are.
-/

namespace Chip8.Command

open Chip8.Text

inductive Content
  | text (s : String)
  | image (i : Image)
  deriving DecidableEq, Repr

structure Report where
  exitCode : Nat
  out : String
  err : String
  /-- The file that was written, by its path. -/
  written : Option (String × Content)
  deriving DecidableEq, Repr

/-- An answer, or the statement that the command line was not understood. -/
inductive Outcome
  | usage
  | badPath (e : FileError)
  | report (r : Report)
  deriving DecidableEq, Repr

def Report.silent : Report := ⟨0, "", "", none⟩

def Report.addOut (r : Report) (s : String) : Report := { r with out := r.out ++ stripControls s }

def Report.addErr (r : Report) (s : String) : Report := { r with err := r.err ++ stripControls s }

def version : String := "1.0.0"

def versionReport (tool : String) : Report := Report.silent.addOut s!"{tool}, version {version}\n"

/-! ## Failures -/

inductive Failure
  /-- A program could not be loaded or executed, or a snapshot could not be restored. -/
  | machine (text : String)
  | argument (text : String)
  | file (text : String)
  | other (text : String)
  deriving DecidableEq, Repr

namespace Failure

def exitCode : Failure → Nat
  | machine _ => 1
  | argument _ => 2
  | file _ => 2
  | other _ => 3

/-- The line that reports a failure. The kind of work can be named for failures of the machine. -/
def line (kind : String) : Failure → String
  | machine text => if kind.isEmpty then s!"Error: {text}\n" else s!"{kind} error: {text}\n"
  | argument text => s!"Error: {text}\n"
  | file text => s!"Error: {text}\n"
  | other text => s!"Internal error: {text}\n"

end Failure

def Report.fail (r : Report) (kind : String) (f : Failure) : Report :=
  { r.addErr (f.line kind) with exitCode := f.exitCode }

/-- The answer to words that make no sense. An option without its value, or with one that it does
not take, is named. -/
def WordError.outcome : WordError → Outcome
  | .unknownOption => .usage
  | .valueMissing name =>
    .report (Report.silent.fail "" (.argument s!"Option '{name}' requires an argument."))
  | .valueUnwanted name =>
    .report (Report.silent.fail "" (.argument s!"Option '{name}' does not take a value."))

def ReadError.outcome : ReadError → Outcome
  | .senseless => .usage
  | .badPath e => .badPath e

/-! ## Log lines -/

inductive Level
  | debug
  | info
  | warning
  | error
  deriving DecidableEq, Repr

def Level.name : Level → String
  | debug => "DEBUG"
  | info => "INFO"
  | warning => "WARNING"
  | error => "ERROR"

/-- A line of the log. In verbose mode all lines are shown with their level, otherwise those of
the lowest level are left out. -/
def Level.line (verbose : Bool) (level : Level) (text : String) : String :=
  if verbose then s!"{level.name}: {text}\n"
  else if level = debug then ""
  else text ++ "\n"

def Report.log (r : Report) (verbose : Bool) (level : Level) (text : String) : Report :=
  { r with err := r.err ++ level.line verbose text }

end Chip8.Command
