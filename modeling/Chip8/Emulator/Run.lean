import Chip8.Emulator.Basic
import Chip8.Rounding

/-!
# Running

A run executes instructions one after the other until it may execute no more, an instruction
fails, or the debugger wants to stop. Before every instruction the debugger is asked. A breakpoint
at the instruction where the run starts does not stop it, so that a stopped run can be resumed;
the debugger remembers it all the same, and does not look at conditions there.

A frame is a run of what one sixtieth of a second owes, followed by a tick of the timers. Each
frame is a run of its own. A frame that is stopped early is not ticked.
-/

namespace Chip8.Emulator

open Chip8.Text Chip8.Debug

/-- End a call early with an event that the debugger has reported. The debugger remembers the
event with the count of instructions that the whole call executed. -/
def stopped (e : Emulator) (event : Event) (cycles : Nat) : Event × Emulator :=
  let event := { event with cycles := cycles }
  (event, { e with debugger := e.debugger.record event })

def exhausted (e : Emulator) (limit : Int) (executed : Nat) : Event :=
  ⟨.maxSteps, some e.machine.pc.toNat, none, executed, none, s!"Reached max steps ({limit})"⟩

def stops (event : Event) (executed : Nat) : Bool :=
  !(executed == 0 && event.reason == .breakpoint)

/-- Go on with a run that has executed some instructions and has `left` to go. -/
def runOn (e : Emulator) (limit : Int) (stopOnKeyWait : Bool) (executed : Nat) :
    Nat → Event × Emulator
  | 0 => (e.exhausted limit executed, e)
  | left + 1 =>
    let (found, debugger) := e.debugger.check e.machine
    let e := { e with debugger := debugger }
    -- A breakpoint that is passed here was recorded by the check all the same.
    match found.filter (stops · executed) with
    | some event => e.stopped event executed
    | none =>
      let (event, e) := e.step
      match event.reason with
      | .fault => e.stopped event executed
      | .keyWait =>
        if stopOnKeyWait then ({ event with cycles := executed + 1 }, e)
        else e.runOn limit stopOnKeyWait (executed + 1) left
      | _ => e.runOn limit stopOnKeyWait (executed + 1) left

/-- Execute at most `limit` instructions. A key wait ends the run. Timers are not ticked. -/
def run (e : Emulator) (limit : Int) : Event × Emulator := e.runOn limit true 0 limit.toNat

def completed (e : Emulator) (executed : Nat) : Event :=
  ⟨.step, some e.machine.pc.toNat, none, executed, none, ""⟩

def frameRate : Nat := 60

/-- Run one frame. A key wait does not end it. -/
def runFrame (e : Emulator) : Event × Emulator :=
  let owed := e.credit + e.frequency
  let steps := owed / frameRate
  let e := { e with credit := owed % frameRate }
  let (event, e) := e.runOn steps false 0 steps
  if event.reason ≠ .maxSteps then (event, e)
  else
    let e := e.tick
    (e.completed event.cycles, e)

def runFramesOn (e : Emulator) (executed : Nat) : Nat → Event × Emulator
  | 0 => (e.completed executed, e)
  | frames + 1 =>
    let (event, e) := e.runFrame
    let executed := executed + event.cycles
    if event.reason ≠ .step then e.stopped event executed else e.runFramesOn executed frames

/-- Run frames up to the first that is stopped early. -/
def runFrames (e : Emulator) (frames : Int) : Event × Emulator := e.runFramesOn 0 frames.toNat

/-- The number of frames in a duration, to the nearest. -/
def framesIn (seconds : Float) : Except RoundingError Int := nearestInt (seconds * 60)

def runFor (e : Emulator) (seconds : Float) : Except RoundingError (Event × Emulator) := do
  return e.runFrames (← framesIn seconds)

end Chip8.Emulator
