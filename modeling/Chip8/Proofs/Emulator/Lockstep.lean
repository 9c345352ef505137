import Chip8.Proofs.Emulator.Pace

/-!
# Two emulators side by side

Two emulators that are related in some way stay so through a run if single steps keep them so, and
then through a frame and through calls of many frames (`Lockstep`). What a step asks of the machine
is asked of the states in which the first emulator executes its instructions. The two may part
where the first one reports a certain fault.
-/

namespace Chip8.Emulator

open Chip8.Debug

variable {R : Emulator → Emulator → Prop} {Q : Machine → Prop} {E : Event → Prop}

/-- The same event and related emulators, or the first event is one at which the two part. -/
def Together (R : Emulator → Emulator → Prop) (E : Event → Prop) (o o' : Event × Emulator) : Prop :=
  (o'.1 = o.1 ∧ R o.2 o'.2) ∨ E o.1

/-- Related emulators step alike where the machine satisfies `Q`, unless they part with an event of
`E`. They tick alike, and neither the debugger nor the clock of the instructions tells them apart. -/
structure Lockstep (R : Emulator → Emulator → Prop) (Q : Machine → Prop) (E : Event → Prop) :
    Prop where
  step {e e' : Emulator} : R e e' → (e.step.1.reason ≠ .fault → Q e.machine) →
    Together R E e.step e'.step
  tick {e e' : Emulator} : R e e' → R e.tick e'.tick
  withDebugger {e e' : Emulator} (d : Debugger) : R e e' →
    R { e with debugger := d } { e' with debugger := d }
  withCredit {e e' : Emulator} (credit : Nat) : R e e' →
    R { e with credit := credit } { e' with credit := credit }
  debugger {e e' : Emulator} : R e e' → e'.debugger = e.debugger
  check {e e' : Emulator} (d : Debugger) : R e e' → d.check e'.machine = d.check e.machine
  pc {e e' : Emulator} : R e e' → e'.machine.pc = e.machine.pc
  credit {e e' : Emulator} : R e e' → e'.credit = e.credit
  frequency {e e' : Emulator} : R e e' → e'.frequency = e.frequency
  fault {event : Event} : E event → event.reason = .fault
  counted {event : Event} (cycles : Nat) : E event → E { event with cycles := cycles }

theorem executed_le_cycles (e : Emulator) (limit : Int) (stopOnKeyWait : Bool)
    (executed left : Nat) : executed ≤ (e.runOn limit stopOnKeyWait executed left).1.cycles := by
  induction left generalizing e executed with
  | zero => exact Nat.le_refl _
  | succ left ih =>
      rw [runOn_succ]
      cases e.stopBefore executed with
      | some event => exact Nat.le_refl _
      | none =>
          dsimp only
          split
          · exact Nat.le_refl _
          · split
            · exact Nat.le_succ _
            · exact Nat.le_of_succ_le (ih _ _)

namespace Lockstep

variable {e e' : Emulator} {executed left n : Nat}

/-! ## Between the instructions -/

theorem checked (k : Lockstep R Q E) (h : R e e') : R e.checked e'.checked := by
  unfold Emulator.checked
  rw [k.debugger h, k.check _ h]
  exact k.withDebugger _ h

theorem stopBefore (k : Lockstep R Q E) (h : R e e') (executed : Nat) :
    e'.stopBefore executed = e.stopBefore executed := by
  unfold Emulator.stopBefore
  rw [k.debugger h, k.check _ h]

theorem stopped (k : Lockstep R Q E) (h : R e e') (event : Event) (cycles : Nat) :
    Together R E (e.stopped event cycles) (e'.stopped event cycles) := by
  refine Or.inl ⟨rfl, ?_⟩
  show R _ { e' with debugger := e'.debugger.record { event with cycles := cycles } }
  rw [k.debugger h]
  exact k.withDebugger _ h

theorem completed (k : Lockstep R Q E) (h : R e e') (executed : Nat) :
    e'.completed executed = e.completed executed := by
  unfold Emulator.completed
  rw [k.pc h]

theorem owed (k : Lockstep R Q E) (h : R e e') : e'.owed = e.owed := by
  unfold Emulator.owed
  rw [k.credit h, k.frequency h]

theorem frameStart (k : Lockstep R Q E) (h : R e e') : R e.frameStart e'.frameStart := by
  have credit : (e'.credit + e'.frequency) % frameRate = (e.credit + e.frequency) % frameRate := by
    rw [k.credit h, k.frequency h]
  unfold Emulator.frameStart
  rw [credit]
  exact k.withCredit _ h

/-! ## Runs and frames -/

theorem runOn (k : Lockstep R Q E) (h : R e e') {limit : Int} {stopOnKeyWait : Bool}
    (asked : ∀ j, executed + j < (e.runOn limit stopOnKeyWait executed left).1.cycles →
      Q (e.afterSteps j).machine) :
    Together R E (e.runOn limit stopOnKeyWait executed left)
      (e'.runOn limit stopOnKeyWait executed left) := by
  induction left generalizing e e' executed with
  | zero =>
      refine Or.inl ⟨?_, h⟩
      show e'.exhausted limit executed = e.exhausted limit executed
      unfold exhausted
      rw [k.pc h]
  | succ left ih =>
      rw [runOn_succ] at asked
      rw [runOn_succ, runOn_succ, k.stopBefore h]
      cases stop : e.stopBefore executed with
      | some event => exact k.stopped (k.checked h) event executed
      | none =>
          rw [stop] at asked
          dsimp only at asked ⊢
          have first : e.checked.step.1.reason ≠ .fault → Q e.checked.machine := by
            intro executes
            rw [if_neg executes] at asked
            refine asked 0 ?_
            split
            · exact Nat.lt_succ_self executed
            · exact executed_le_cycles _ limit stopOnKeyWait (executed + 1) left
          rcases k.step (k.checked h) first with ⟨event, after⟩ | parts
          · rw [event]
            by_cases failed : e.checked.step.1.reason = .fault
            · rw [if_pos failed, if_pos failed]
              exact k.stopped after _ executed
            · rw [if_neg failed] at asked
              rw [if_neg failed, if_neg failed]
              by_cases waits : e.checked.step.1.reason = .keyWait ∧ stopOnKeyWait
              · rw [if_pos waits, if_pos waits]
                exact Or.inl ⟨rfl, after⟩
              · rw [if_neg waits] at asked
                rw [if_neg waits, if_neg waits]
                refine ih after fun j less => ?_
                -- the debugger is asked before each step, and the machine does not see it
                have here : e.checked.step.2.machine = e.step.2.machine := by
                  rw [step_machine, step_machine]
                  rfl
                rw [afterSteps_machine here]
                exact asked (j + 1) (by omega)
          · rw [if_pos (k.fault parts)]
            exact Or.inr (k.counted executed parts)

theorem run (k : Lockstep R Q E) (h : R e e') {limit : Int}
    (asked : ∀ j < (e.run limit).1.cycles, Q (e.afterSteps j).machine) :
    Together R E (e.run limit) (e'.run limit) := by
  refine k.runOn h fun j less => asked j ?_
  rwa [Nat.zero_add] at less

theorem runFrame (k : Lockstep R Q E) (h : R e e')
    (asked : ∀ j < e.runFrame.1.cycles, Q (e.afterSteps j).machine) :
    Together R E e.runFrame e'.runFrame := by
  have cycles : e.runFrame.1.cycles = e.frameRun.1.cycles := by
    rw [runFrame_eq]
    split
    · rfl
    · rfl
  have ran : Together R E e.frameRun e'.frameRun := by
    unfold frameRun
    rw [k.owed h]
    refine k.runOn (k.frameStart h) fun j less => ?_
    have here : e.frameStart.machine = e.machine := rfl
    rw [afterSteps_machine here]
    apply asked j
    rw [cycles]
    rwa [Nat.zero_add] at less
  rw [runFrame_eq, runFrame_eq]
  rcases ran with ⟨event, after⟩ | parts
  · rw [event]
    split
    · exact Or.inl ⟨event, after⟩
    · exact Or.inl ⟨k.completed (k.tick after) _, k.tick after⟩
  · have early : e.frameRun.1.reason ≠ .maxSteps := by
      rw [k.fault parts]
      decide
    rw [if_pos early]
    exact Or.inr parts

theorem runFrames (k : Lockstep R Q E) (h : R e e')
    (asked : ∀ j < n, e.Completes j → ∀ i < (e.afterFrames j).runFrame.1.cycles,
      Q ((e.afterFrames j).afterSteps i).machine) :
    Together R E (e.runFrames n) (e'.runFrames n) := by
  induction n with
  | zero => exact Or.inl ⟨k.completed h 0, h⟩
  | succ n ih =>
      rw [runFrames_succ, runFrames_succ, nextFrame, nextFrame]
      rcases ih fun j less => asked j (Nat.lt_succ_of_lt less) with ⟨event, after⟩ | parts
      · rw [event]
        by_cases early : (e.runFrames n).1.reason ≠ .step
        · rw [if_pos early, if_pos early]
          exact Or.inl ⟨event, after⟩
        · rw [if_neg early, if_neg early]
          obtain ⟨completes, there⟩ := runFrames_of_completed (not_not.mp early)
          have next := asked n (Nat.lt_succ_self n) completes
          rw [show e.afterFrames n = (e.runFrames n).2 from (congrArg Prod.snd there).symm] at next
          rcases k.runFrame after next with ⟨event', after'⟩ | parts
          · rw [event']
            split
            · exact k.stopped after' _ _
            · exact Or.inl ⟨k.completed after' _, after'⟩
          · have failed : (e.runFrames n).2.runFrame.1.reason ≠ .step := by
              rw [k.fault parts]
              decide
            rw [if_pos failed]
            exact Or.inr (k.counted _ parts)
      · have early : (e.runFrames n).1.reason ≠ .step := by
          rw [k.fault parts]
          decide
        rw [if_pos early]
        exact Or.inr parts

end Lockstep

end Chip8.Emulator
