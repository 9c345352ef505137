import Chip8.Text.Basic

/-!
# Execution faults

A fault says why an instruction could not be executed, and where: the address of the instruction
and its word are filled in once they are known. A fault never stops the machine by itself; the
host decides whether to stop, skip the instruction or go on.
-/

namespace Chip8

open Chip8.Text

/-- Why an instruction could not be executed. -/
inductive Cause
  | unknownOpcode
  /-- A call with `depth` return addresses already on the stack. -/
  | stackOverflow (depth : Int)
  | stackUnderflow
  | memoryAccess (target : Int)
  /-- A cause a host states in its own words. -/
  | stated (text : String)
  deriving DecidableEq, Repr

def Cause.message : Cause → String
  | .unknownOpcode => "unknown opcode"
  | .stackOverflow depth => s!"stack overflow (depth {depth})"
  | .stackUnderflow => "stack underflow"
  | .memoryAccess target => s!"memory access out of range (${hex 4 target})"
  | .stated text => text

/-- A cause with the address and the word of the instruction, as far as they are known. -/
structure Fault where
  cause : Cause
  address : Option Int
  word : Option Int
  deriving DecidableEq, Repr

namespace Fault

def of (cause : Cause) : Fault := ⟨cause, none, none⟩

/-- Fill in the instruction where it is not known; what is known stays. -/
def attach (f : Fault) (address : Int) (word : Option Int) : Fault :=
  { f with address := f.address.or (some address), word := f.word.or word }

def text (f : Fault) : String :=
  let place := match f.address with
    | some a => s!" at ${hex 4 a}"
    | none => ""
  let opcode := match f.word with
    | some w => s!" (opcode ${hex 4 w})"
    | none => ""
  f.cause.message ++ place ++ opcode

theorem attach_of (cause : Cause) (address : Int) (word : Option Int) :
    (Fault.of cause).attach address word = ⟨cause, some address, word⟩ := rfl

theorem attach_attach (f : Fault) (a b : Int) (v w : Int) :
    (f.attach a (some v)).attach b (some w) = f.attach a (some v) := by
  rcases f with ⟨c, _ | a', _ | w'⟩ <;> rfl

end Fault

end Chip8
