import Chip8.Proofs.Emulator.Pace

/-!
# What calls count

Instructions are counted in several places: the emulator counts all of them, a run counts its own,
a frame those of its run and a call for some seconds those of its frames. A headless run counts
the instructions that it skipped as well. Whatever ends a call, its event says by how much the
count of the emulator grew, and the ticks grew by the frames that were not stopped.

The loops carry a count along that they started with, so each induction is about the difference
that the rest of the loop makes.
-/

namespace Chip8.Emulator

open Chip8.Debug

variable {e : Emulator}

/-- A call counted its instructions in its event, and so many frames in the ticks. -/
structure Accounted (e : Emulator) (frames : Nat) (o : Event × Emulator) : Prop where
  steps : o.2.totalSteps = e.totalSteps + o.1.cycles
  ticks : o.2.totalTicks = e.totalTicks + frames

theorem step_accounted (e : Emulator) : Accounted e 0 e.step := by
  rcases h : e.machine.step with ⟨m, f | i⟩
  · rw [step_of_error h]
    exact ⟨rfl, rfl⟩
  · rw [step_of_ok h]
    refine ⟨?_, rfl⟩
    cases m.waitingForKey with
    | true => rfl
    | false => rfl

theorem run_accounted (e : Emulator) (limit : Int) : Accounted e 0 (e.run limit) := by
  have run := counted_runOn e limit true 0 limit.toNat
  exact ⟨run.steps, run.pace.ticks⟩

/-! ## Frames -/

/-- A frame that is stopped early does not tick. -/
theorem runFrame_stopped (h : e.runFrame.1.reason ≠ .step) :
    e.runFrame.2.totalTicks = e.totalTicks := by
  have run := counted_runOn e.frameStart e.owed false 0 e.owed
  rw [runFrame_eq] at h ⊢
  by_cases ended : e.frameRun.1.reason = .maxSteps
  · rw [if_neg (not_not_intro ended)] at h
    exact absurd rfl h
  · rw [if_pos ended]
    exact run.pace.ticks

theorem runFrame_accounted (e : Emulator) :
    Accounted e (if e.runFrame.1.reason = .step then 1 else 0) e.runFrame := by
  refine ⟨(runFrame_carries e).2.2, ?_⟩
  split
  · rename_i ended
    exact (runFrame_completes ended).2
  · rename_i early
    exact runFrame_stopped early

/-- Of so many frames in a row, the first `k` end normally; the next one does not, if there is
one. -/
structure EndsBehind (e : Emulator) (frames k : Nat) : Prop where
  le : k ≤ frames
  completed : e.Completes k
  early : k < frames → (e.afterFrames k).runFrame.1.reason ≠ .step

/-- Going on with one more frame. -/
theorem Accounted.nextFrame {n : Nat} {o : Event × Emulator} (h : Accounted e n o)
    (going : o.1.reason = .step) :
    Accounted e (n + if o.2.runFrame.1.reason = .step then 1 else 0) (nextFrame o) := by
  obtain ⟨steps, ticks⟩ := h
  obtain ⟨frameSteps, frameTicks⟩ := runFrame_accounted o.2
  rw [steps, Nat.add_assoc] at frameSteps
  rw [ticks, Nat.add_assoc] at frameTicks
  rw [Emulator.nextFrame, if_neg (not_not_intro going)]
  by_cases last : o.2.runFrame.1.reason = .step
  · rw [if_neg (not_not_intro last)]
    exact ⟨frameSteps, frameTicks⟩
  · rw [if_pos last]
    exact ⟨frameSteps, frameTicks⟩

/-- A call for some frames ends behind the first of them that is stopped early. -/
theorem runFrames_accounted (e : Emulator) (n : Nat) :
    ∃ k, EndsBehind e n k ∧ Accounted e k (e.runFrames n) ∧
      (k = n → (e.runFrames n).1.reason = .step) := by
  induction n with
  | zero =>
      have none : EndsBehind e 0 0 :=
        ⟨Nat.le_refl 0, fun k less => absurd less (Nat.not_lt_zero k),
          fun less => absurd less (Nat.lt_irrefl 0)⟩
      exact ⟨0, none, ⟨rfl, rfl⟩, fun _ => rfl⟩
  | succ n ih =>
      rw [runFrames_succ]
      by_cases going : (e.runFrames n).1.reason = .step
      · obtain ⟨c, there⟩ := runFrames_of_completed going
        have all : Accounted e n (e.runFrames n) := by
          rw [there]
          exact ⟨afterFrames_totalSteps e n, afterFrames_totalTicks c⟩
        have one := all.nextFrame going
        rw [show (e.runFrames n).2 = e.afterFrames n by rw [there]] at one
        by_cases last : (e.afterFrames n).runFrame.1.reason = .step
        · rw [if_pos last] at one
          have whole : EndsBehind e (n + 1) (n + 1) :=
            ⟨Nat.le_refl _, completes_succ_iff.mpr ⟨c, last⟩,
              fun less => absurd less (Nat.lt_irrefl _)⟩
          refine ⟨n + 1, whole, one, ?_⟩
          intro _
          rw [there, Emulator.nextFrame, if_neg (by simp [completed]),
            if_neg (not_not_intro last)]
          rfl
        · rw [if_neg last] at one
          exact ⟨n, ⟨Nat.le_succ n, c, fun _ => last⟩, one, fun eq => by omega⟩
      · -- the call had ended before, so there is a frame that was stopped
        obtain ⟨k, ends, counted, all⟩ := ih
        have less : k < n := Nat.lt_of_le_of_ne ends.le fun eq => going (all eq)
        rw [Emulator.nextFrame, if_pos going]
        exact ⟨k, ⟨Nat.le_succ_of_le ends.le, ends.completed, fun _ => ends.early less⟩, counted,
          fun eq => by omega⟩

/-! ## Headless runs -/

/-- What the rest of a headless run adds to its count, it executed or skipped. -/
theorem headlessOn_accounted (steps : Int) (onFault : OnFault) (executed : Nat)
    (skipped : List Fault) (e : Emulator) (frames : Nat) :
    (headlessOn steps onFault executed skipped e frames).executed + skipped.length + e.totalSteps =
      (headlessOn steps onFault executed skipped e frames).emulator.totalSteps +
        (headlessOn steps onFault executed skipped e frames).skipped.length + executed := by
  induction frames generalizing executed skipped e with
  | zero =>
      rw [headlessOn]
      split <;> dsimp only <;> omega
  | succ frames ih =>
      have frame := (runFrame_accounted e).steps
      rw [headlessOn]
      split
      · dsimp only
        omega
      · dsimp only
        cases e.runFrame.1.fault with
        | none =>
            have rest := ih (executed + e.runFrame.1.cycles) skipped e.runFrame.2
            dsimp only
            omega
        | some f =>
            cases onFault with
            | halt =>
                dsimp only
                omega
            | skip =>
                have rest := ih (executed + e.runFrame.1.cycles + 1) (f :: skipped)
                  e.runFrame.2.skipInstruction
                have still : e.runFrame.2.skipInstruction.totalSteps = e.runFrame.2.totalSteps :=
                  rfl
                rw [List.length_cons] at rest
                dsimp only
                omega

/-- What a headless run reports was counted by the emulator or skipped. -/
def HeadlessAccounted (e : Emulator) (run : HeadlessRun) : Prop :=
  e.totalSteps + run.executed = run.emulator.totalSteps + run.skipped.length

/-- **Every call accounts for its instructions.** However a step, a run, a frame or a call for some
seconds ends, its event has as many instructions as the count of the emulator grew by; and the
ticks grew by the frames that ended normally, which are those before the first that was stopped. A
headless run reports the instructions that were counted and those it skipped, however many frames
it is given. -/
theorem calls_account (e : Emulator) :
    Accounted e 0 e.step ∧ (∀ limit, Accounted e 0 (e.run limit)) ∧
      Accounted e (if e.runFrame.1.reason = .step then 1 else 0) e.runFrame ∧
      (∀ seconds, e.runFor seconds = (framesIn seconds).map e.runFrames) ∧
      (∀ frames : Int, ∃ k, EndsBehind e frames.toNat k ∧ Accounted e k (e.runFrames frames)) ∧
      ∀ steps onFault, HeadlessAccounted e (e.runHeadless steps onFault) ∧
        ∀ frames, HeadlessAccounted e (headlessOn steps onFault 0 [] e frames) := by
  have headless : ∀ steps onFault frames,
      HeadlessAccounted e (headlessOn steps onFault 0 [] e frames) := by
    intro steps onFault frames
    have counted := headlessOn_accounted steps onFault 0 [] e frames
    rw [List.length_nil] at counted
    unfold HeadlessAccounted
    omega
  refine ⟨step_accounted e, run_accounted e, runFrame_accounted e, ?_, ?_, ?_⟩
  · intro seconds
    rw [runFor]
    cases framesIn seconds <;> rfl
  · intro frames
    obtain ⟨k, ends, counted, -⟩ := runFrames_accounted e frames.toNat
    exact ⟨k, ends, counted⟩
  · intro steps onFault
    exact ⟨headless steps onFault _, headless steps onFault⟩

end Chip8.Emulator
