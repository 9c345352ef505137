import Chip8.Fault

/-!
# Events

Whatever drives the machine ends in an event that says why it stopped, where, and how many
instructions were executed. Faults reach the host in an event too.
-/

namespace Chip8.Debug

open Chip8.Text

inductive Reason
  /-- All that was asked for was executed. -/
  | step
  | breakpoint
  | condition
  | keyWait
  /-- The host asked for a break. -/
  | interrupt
  | maxSteps
  | fault
  deriving DecidableEq, Repr

namespace Reason

def all : List Reason := [step, breakpoint, condition, keyWait, interrupt, maxSteps, fault]

def name : Reason → String
  | step => "STEP"
  | breakpoint => "PC_BREAKPOINT"
  | condition => "REGISTER_CONDITION"
  | keyWait => "KEY_WAIT"
  | interrupt => "USER_INTERRUPT"
  | maxSteps => "MAX_STEPS"
  | fault => "ERROR"

def ofName? (s : String) : Option Reason := all.find? fun r => r.name == s

end Reason

structure Event where
  reason : Reason
  address : Option Int
  word : Option Int
  /-- Instructions executed by the call that ended in this event. -/
  cycles : Nat
  fault : Option Fault
  message : String
  deriving DecidableEq, Repr

namespace Event

def isFault (e : Event) : Bool := e.reason == .fault

/-- The message, or what the reason says by itself if there is none. -/
def text (e : Event) : String :=
  if !e.message.isEmpty then e.message
  else match e.reason, e.address, e.fault with
    | .breakpoint, some a, _ => s!"Breakpoint at ${hex 4 a}"
    | .breakpoint, none, _ => "Breakpoint"
    | .condition, _, _ => "Register condition met"
    | .keyWait, _, _ => "Waiting for key"
    | .step, _, _ => "Single step"
    | .maxSteps, _, _ => "Maximum steps reached"
    | .fault, _, some f => f.text
    | .fault, _, none => "Runtime error"
    | .interrupt, _, _ => "User interrupt"

end Event

end Chip8.Debug
