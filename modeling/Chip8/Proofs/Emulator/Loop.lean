import Chip8.Emulator.Headless
import Chip8.Proofs.Debug.Check
import Chip8.Proofs.Emulator.Steps

/-!
# The loops of an emulator

A run is a loop of turns. In each turn the debugger is asked first, then one instruction is
executed; `runOn_succ` is that turn without its patterns. A frame is a run between two changes of
the credit and the counts, and everything longer is a loop of frames.

What single steps, ticks and skips keep, and what depends neither on the debugger nor on the
credit, is kept by all loops (`Kept`). What is true of the event of every single step is true of
the events of all loops then, if it does not depend on the count of instructions and says nothing
of events without a fault (`Reports`).
-/

namespace Chip8.Emulator

open Chip8.Text Chip8.Debug

/-! ## One turn of a run -/

/-- The emulator after the debugger was asked. -/
def checked (e : Emulator) : Emulator := { e with debugger := (e.debugger.check e.machine).2 }

/-- The event that stops a run before its next instruction. -/
def stopBefore (e : Emulator) (executed : Nat) : Option Event :=
  (e.debugger.check e.machine).1.filter (stops · executed)

/-- One turn: the run stops before the instruction, the instruction fails or waits for a key, or
the run goes on behind it. -/
theorem runOn_succ (e : Emulator) (limit : Int) (stopOnKeyWait : Bool) (executed left : Nat) :
    e.runOn limit stopOnKeyWait executed (left + 1) =
      match e.stopBefore executed with
      | some event => e.checked.stopped event executed
      | none =>
        if e.checked.step.1.reason = .fault then
          e.checked.step.2.stopped e.checked.step.1 executed
        else if e.checked.step.1.reason = .keyWait ∧ stopOnKeyWait then
          ({ e.checked.step.1 with cycles := executed + 1 }, e.checked.step.2)
        else e.checked.step.2.runOn limit stopOnKeyWait (executed + 1) left := by
  unfold stopBefore checked
  rw [runOn]
  rcases e.debugger.check e.machine with ⟨found, debugger⟩
  dsimp only
  cases found.filter (stops · executed) with
  | some event => rfl
  | none =>
      dsimp only
      rcases ({ e with debugger := debugger } : Emulator).step with ⟨event, e'⟩
      cases event.reason <;> simp

/-- One turn with nothing to stop for: the instruction fails or waits, or the run goes on. -/
theorem runOn_succ_of_quiet {e : Emulator} (q : e.debugger.Quiet) (limit : Int)
    (stopOnKeyWait : Bool) (executed left : Nat) :
    e.runOn limit stopOnKeyWait executed (left + 1) =
      if e.step.1.reason = .fault then e.step.2.stopped e.step.1 executed
      else if e.step.1.reason = .keyWait ∧ stopOnKeyWait then
        ({ e.step.1 with cycles := executed + 1 }, e.step.2)
      else e.step.2.runOn limit stopOnKeyWait (executed + 1) left := by
  rw [runOn_succ, stopBefore, checked, Debugger.check_of_quiet q]
  rfl

/-! ## Frames -/

/-- The instructions that the next frame owes. -/
def owed (e : Emulator) : Nat := (e.credit + e.frequency) / frameRate

/-- The emulator when the next frame starts: what is owed later is put aside. -/
def frameStart (e : Emulator) : Emulator :=
  { e with credit := (e.credit + e.frequency) % frameRate }

/-- The run of the next frame, without the tick. -/
def frameRun (e : Emulator) : Event × Emulator := e.frameStart.runOn e.owed false 0 e.owed

/-- A frame is its run, and a tick if the run was not stopped. -/
theorem runFrame_eq (e : Emulator) :
    e.runFrame =
      if e.frameRun.1.reason ≠ .maxSteps then e.frameRun
      else (e.frameRun.2.tick.completed e.frameRun.1.cycles, e.frameRun.2.tick) := rfl

/-- The outcome of some frames, when the next frame was run as well. -/
def nextFrame (o : Event × Emulator) : Event × Emulator :=
  if o.1.reason ≠ .step then o
  else if o.2.runFrame.1.reason ≠ .step then
    o.2.runFrame.2.stopped o.2.runFrame.1 (o.1.cycles + o.2.runFrame.1.cycles)
  else (o.2.runFrame.2.completed (o.1.cycles + o.2.runFrame.1.cycles), o.2.runFrame.2)

theorem runFramesOn_succ (e : Emulator) (executed frames : Nat) :
    e.runFramesOn executed (frames + 1) = nextFrame (e.runFramesOn executed frames) := by
  induction frames generalizing e executed with
  | zero => rfl
  | succ frames ih =>
      rw [runFramesOn]
      dsimp only
      split
      · rename_i early
        rw [runFramesOn]
        dsimp only
        rw [if_pos early]
        exact (if_pos early).symm
      · rename_i ended
        rw [ih, runFramesOn]
        dsimp only
        rw [if_neg ended]

/-- One more frame is run behind the others, unless the call had ended before. -/
theorem runFrames_succ (e : Emulator) (frames : Nat) :
    e.runFrames (frames + 1 : Nat) = nextFrame (e.runFrames frames) := runFramesOn_succ e 0 frames

/-! ## What all loops keep -/

/-- A property of emulators that every part of a loop keeps. -/
structure Kept (P : Emulator → Prop) : Prop where
  step : ∀ {e}, P e → P e.step.2
  tick : ∀ {e}, P e → P e.tick
  skip : ∀ {e}, P e → P e.skipInstruction
  debugger : ∀ {e} d, P e → P { e with debugger := d }
  credit : ∀ {e} c, c < frameRate → P e → P { e with credit := c }

namespace Kept

variable {P : Emulator → Prop} {e : Emulator}

theorem runOn (k : Kept P) {limit : Int} {stopOnKeyWait : Bool} {executed left : Nat} (h : P e) :
    P (e.runOn limit stopOnKeyWait executed left).2 := by
  induction left generalizing e executed with
  | zero => exact h
  | succ left ih =>
      have hc : P e.checked := k.debugger _ h
      rw [runOn_succ]
      split
      · exact k.debugger _ hc
      · split
        · exact k.debugger _ (k.step hc)
        · split
          · exact k.step hc
          · exact ih (k.step hc)

theorem run (k : Kept P) {limit : Int} (h : P e) : P (e.run limit).2 := k.runOn h

theorem runFrame (k : Kept P) (h : P e) : P e.runFrame.2 := by
  have paid : P e.frameStart := k.credit _ (Nat.mod_lt _ (by decide)) h
  have ran : P e.frameRun.2 := k.runOn paid
  rw [runFrame_eq]
  split
  · exact ran
  · exact k.tick ran

theorem runFramesOn (k : Kept P) {executed frames : Nat} (h : P e) :
    P (e.runFramesOn executed frames).2 := by
  induction frames generalizing e executed with
  | zero => exact h
  | succ frames ih =>
      rw [Emulator.runFramesOn]
      dsimp only
      split
      · exact k.debugger _ (k.runFrame h)
      · exact ih (k.runFrame h)

theorem runFrames (k : Kept P) {frames : Int} (h : P e) : P (e.runFrames frames).2 :=
  k.runFramesOn h

theorem headlessOn (k : Kept P) {steps : Int} {onFault : OnFault} {executed frames : Nat}
    {skipped : List Fault} (h : P e) :
    P (Emulator.headlessOn steps onFault executed skipped e frames).emulator := by
  induction frames generalizing e executed skipped with
  | zero =>
      rw [Emulator.headlessOn]
      split
      · exact h
      · exact h
  | succ frames ih =>
      rw [Emulator.headlessOn]
      split
      · exact h
      · have ran := k.runFrame h
        dsimp only
        split
        · exact ih ran
        · exact ran
        · exact ih (k.skip ran)

theorem runHeadless (k : Kept P) {steps : Int} {onFault : OnFault} (h : P e) :
    P (e.runHeadless steps onFault).emulator := k.headlessOn h

end Kept

/-! ## What all loops report -/

/-- Steps of emulators with a property that all parts of a loop keep end in events with another. -/
structure Reports (P : Emulator → Prop) (Q : Event → Prop) : Prop extends Kept P where
  report : ∀ {e}, P e → Q e.step.1
  quiet : ∀ {event}, event.reason ≠ .fault → event.fault = none → Q event
  cycles : ∀ {event} n, Q event → Q { event with cycles := n }

namespace Reports

variable {P : Emulator → Prop} {Q : Event → Prop} {e : Emulator}

theorem completed (k : Reports P Q) (executed : Nat) : Q (e.completed executed) :=
  k.quiet (fun h => Reason.noConfusion h) rfl

/-- A run ends with the event of a step, or without a fault. -/
theorem runOn (k : Reports P Q) {limit : Int} {stopOnKeyWait : Bool} {executed left : Nat}
    (h : P e) : Q (e.runOn limit stopOnKeyWait executed left).1 := by
  induction left generalizing e executed with
  | zero => exact k.quiet (fun h => Reason.noConfusion h) rfl
  | succ left ih =>
      have hc : P e.checked := k.debugger _ h
      rw [runOn_succ]
      cases stop : e.stopBefore executed with
      | some event =>
          -- what the debugger reports is never a fault
          obtain ⟨reason, message, rfl, own⟩ :=
            Debugger.check_event (Option.eq_some_of_filter_eq_some stop)
          refine k.quiet ?_ rfl
          show reason ≠ .fault
          rcases own with rfl | rfl | rfl <;> decide
      | none =>
          dsimp only
          split
          · exact k.cycles _ (k.report hc)
          · split
            · exact k.cycles _ (k.report hc)
            · exact ih (k.step hc)

theorem run (k : Reports P Q) {limit : Int} (h : P e) : Q (e.run limit).1 := k.runOn h

theorem runFrame (k : Reports P Q) (h : P e) : Q e.runFrame.1 := by
  have paid : P e.frameStart := k.credit _ (Nat.mod_lt _ (by decide)) h
  rw [runFrame_eq]
  split
  · exact k.runOn paid
  · exact k.completed _

theorem runFramesOn (k : Reports P Q) {executed frames : Nat} (h : P e) :
    Q (e.runFramesOn executed frames).1 := by
  induction frames generalizing e executed with
  | zero => exact k.completed _
  | succ frames ih =>
      rw [Emulator.runFramesOn]
      dsimp only
      split
      · exact k.cycles _ (k.runFrame h)
      · exact ih (k.toKept.runFrame h)

theorem runFrames (k : Reports P Q) {frames : Int} (h : P e) : Q (e.runFrames frames).1 :=
  k.runFramesOn h

end Reports

end Chip8.Emulator
