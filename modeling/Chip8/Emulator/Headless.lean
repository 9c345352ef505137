import Chip8.Emulator.Run

/-!
# Running without a window

A headless run goes frame by frame until enough instructions are executed. An instruction that
fails either ends the run or is skipped, and then counts as executed.

A register condition that holds stops every frame that has an instruction to execute. It may hold
for ever, or only until the timers have run down, since a frame with nothing to execute is not
stopped and ticks them. The number of frames in which a run either ends or gets nowhere is known
beforehand: of every sixty frames some have an instruction to execute and, at less than sixty
instructions a second, some have none. So when the timers are down and sixty more frames have
executed nothing, no frame ever will.
-/

namespace Chip8.Emulator

open Chip8.Debug

inductive OnFault
  | halt
  | skip
  deriving DecidableEq, Repr

namespace OnFault

def all : List OnFault := [halt, skip]

def name : OnFault → String
  | halt => "halt"
  | skip => "skip"

end OnFault

inductive HeadlessEnd
  | finished
  | halted (f : Fault)
  /-- No frame executes anything any more. -/
  | stuck
  deriving DecidableEq, Repr

structure HeadlessRun where
  ending : HeadlessEnd
  /-- Instructions executed or skipped. -/
  executed : Nat
  /-- The faults of the skipped instructions, the latest first. -/
  skipped : List Fault
  emulator : Emulator

def headlessOn (steps : Int) (onFault : OnFault) (executed : Nat) (skipped : List Fault)
    (e : Emulator) (frames : Nat) : HeadlessRun :=
  if steps ≤ executed then ⟨.finished, executed, skipped, e⟩
  else match frames with
    | 0 => ⟨.stuck, executed, skipped, e⟩
    | frames + 1 =>
      let (event, e) := e.runFrame
      let executed := executed + event.cycles
      match event.fault, onFault with
      | none, _ => headlessOn steps onFault executed skipped e frames
      | some f, .halt => ⟨.halted f, executed, skipped, e⟩
      | some f, .skip =>
        headlessOn steps onFault (executed + 1) (f :: skipped) e.skipInstruction frames

/-- The frames after which a run that has not ended never will. For every step to go, the timers
may have to run down first, and an instruction is owed at last; a break that the host asked for
takes one such stretch more. -/
def headlessFrames (e : Emulator) (steps : Int) : Nat :=
  (steps.toNat + 1) * (frameRate * (max 255 e.machine.timers.delay.toNat + 1))

/-- Run frame by frame until at least `steps` instructions were executed or skipped. -/
def runHeadless (e : Emulator) (steps : Int) (onFault : OnFault) : HeadlessRun :=
  headlessOn steps onFault 0 [] e (e.headlessFrames steps)

end Chip8.Emulator
