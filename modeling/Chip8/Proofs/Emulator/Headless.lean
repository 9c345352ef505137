import Chip8.Proofs.Emulator.Accounting

/-!
# Headless runs

With nothing to stop for, a frame ends in one of two ways: it executes what it owes, or an
instruction fails that it attempts (`FrameFails`). A headless run goes on behind both, or behind the
first only. Either way a frame gets on: the count of instructions, in sixtieths and with the credit,
grows by one at least. So the frames that a headless run is given are enough, and it ends because
enough instructions were counted or because one failed.

The induction is along the frames of one emulator, and what was counted by then goes along.
-/

namespace Chip8.Emulator

open Chip8.Debug

variable {s e : Emulator} {n : Nat}

/-! ## Frames with nothing to stop for -/

/-- An instruction fails that the next frame attempts. -/
def FrameFails (e : Emulator) : Prop := ∃ k < e.owed, (e.afterSteps k).step.1.reason = .fault

instance (e : Emulator) : Decidable e.FrameFails :=
  inferInstanceAs (Decidable (∃ k < e.owed, (e.afterSteps k).step.1.reason = .fault))

theorem step_quiet (q : e.debugger.Quiet) : e.step.2.debugger.Quiet := by
  rcases h : e.machine.step with ⟨m, f | i⟩
  · rw [step_of_error h]
    exact ⟨q.breakRequested, q.breakpoints, q.conditions⟩
  · rw [step_of_ok h]
    exact q

/-- How the run of a frame ends, of which so many instructions are left. -/
structure RunsOut (e : Emulator) (left : Nat) (o : Event × Emulator) : Prop where
  quiet : o.2.debugger.Quiet
  reason : o.1.reason = .fault ∨ o.1.reason = .maxSteps
  fails : o.1.reason = .fault ↔ ∃ k < left, (e.afterSteps k).step.1.reason = .fault

theorem runOn_of_quiet (q : e.debugger.Quiet) (limit : Int) (executed left : Nat) :
    RunsOut e left (e.runOn limit false executed left) := by
  induction left generalizing e executed with
  | zero =>
      refine ⟨q, Or.inr rfl, iff_of_false nofun ?_⟩
      rintro ⟨k, less, -⟩
      exact Nat.not_lt_zero k less
  | succ left ih =>
      rw [runOn_succ_of_quiet q]
      by_cases failed : e.step.1.reason = .fault
      · rw [if_pos failed]
        have still := step_quiet q
        exact ⟨⟨still.breakRequested, still.breakpoints, still.conditions⟩, Or.inl failed,
          iff_of_true failed ⟨0, Nat.succ_pos left, failed⟩⟩
      · rw [if_neg failed, if_neg (fun waits => Bool.noConfusion waits.2)]
        obtain ⟨quiet, reason, fails⟩ := ih (step_quiet q) (executed + 1)
        refine ⟨quiet, reason, fails.trans ⟨?_, ?_⟩⟩
        · rintro ⟨k, less, here⟩
          exact ⟨k + 1, Nat.succ_lt_succ less, here⟩
        · rintro ⟨_ | k, less, here⟩
          · exact absurd here failed
          · exact ⟨k, Nat.lt_of_succ_lt_succ less, here⟩

/-- A frame with nothing to stop for ends normally, or an instruction of it fails. -/
theorem runFrame_of_quiet (q : e.debugger.Quiet) :
    e.runFrame.2.debugger.Quiet ∧ (e.runFrame.1.reason = .fault ↔ e.FrameFails) ∧
      (e.runFrame.1.reason = .step ↔ ¬ e.FrameFails) := by
  have start : e.frameStart.debugger.Quiet := q
  obtain ⟨quiet, reason, fails⟩ := runOn_of_quiet start e.owed 0 e.owed
  -- the credit that a frame puts aside makes no difference to its steps
  have same (k : Nat) : (e.frameStart.afterSteps k).step.1.reason = .fault ↔
      (e.afterSteps k).step.1.reason = .fault := by
    have machine : e.frameStart.machine = e.machine := rfl
    rw [step_reason_eq_fault_iff, step_reason_eq_fault_iff, afterSteps_machine machine]
  simp only [same] at fails
  have fails : e.frameRun.1.reason = .fault ↔ e.FrameFails := fails
  rw [runFrame_eq, ← fails]
  rcases reason with failed | ended
  · have failed : e.frameRun.1.reason = .fault := failed
    rw [if_pos (by rw [failed]; decide)]
    exact ⟨quiet, Iff.rfl, by rw [failed]; decide⟩
  · have ended : e.frameRun.1.reason = .maxSteps := ended
    rw [if_neg (not_not_intro ended)]
    exact ⟨quiet, by rw [ended]; exact iff_of_false nofun nofun,
      by rw [ended]; exact iff_of_true rfl nofun⟩

/-! ## One frame after the other -/

/-- The emulator when a frame was run and a failed instruction was skipped. -/
def pass (e : Emulator) : Emulator :=
  if e.FrameFails then e.runFrame.2.skipInstruction else e.runFrame.2

/-- The instructions that this counts, the skipped one as well. -/
def passCount (e : Emulator) : Nat := e.runFrame.1.cycles + if e.FrameFails then 1 else 0

def afterPasses (e : Emulator) : Nat → Emulator
  | 0 => e
  | n + 1 => (e.afterPasses n).pass

def passedIn (e : Emulator) (n : Nat) : Nat := ∑ k ∈ Finset.range n, (e.afterPasses k).passCount

theorem passedIn_succ (e : Emulator) (n : Nat) :
    e.passedIn (n + 1) = e.passedIn n + (e.afterPasses n).passCount := Finset.sum_range_succ _ _

/-- Where nothing fails there is nothing to skip. -/
theorem pass_of_not_fails (h : ¬ e.FrameFails) :
    e.pass = e.runFrame.2 ∧ e.passCount = e.runFrame.1.cycles := by
  rw [pass, passCount, if_neg h, if_neg h]
  exact ⟨rfl, rfl⟩

theorem afterPasses_of_not_fails (h : ∀ k < n, ¬ (e.afterPasses k).FrameFails) :
    e.afterPasses n = e.afterFrames n ∧ e.passedIn n = e.executedIn n := by
  induction n with
  | zero => exact ⟨rfl, rfl⟩
  | succ n ih =>
      obtain ⟨same, counted⟩ := ih fun k less => h k (Nat.lt_succ_of_lt less)
      obtain ⟨frame, cycles⟩ := pass_of_not_fails (h n (Nat.lt_succ_self n))
      rw [passedIn_succ, executedIn_succ, counted, cycles, same]
      refine ⟨?_, rfl⟩
      rw [afterPasses, frame, same]
      rfl

/-! ## Frames get on -/

/-- What the runner starts with and keeps: nothing to stop for, a frequency, and less than one
instruction owed. -/
structure Unattended (e : Emulator) : Prop where
  quiet : e.debugger.Quiet
  frequency : 0 < e.frequency
  credit : e.credit < frameRate

theorem Unattended.pass (u : Unattended e) : Unattended e.pass := by
  obtain ⟨credit, frequency, -⟩ := runFrame_carries e
  have frame : Unattended e.runFrame.2 := by
    refine ⟨(runFrame_of_quiet u.quiet).1, ?_, ?_⟩
    · rw [frequency]
      exact u.frequency
    · rw [credit]
      exact Nat.mod_lt _ (by decide)
  rw [Emulator.pass]
  split
  · exact ⟨frame.quiet, frame.frequency, frame.credit⟩
  · exact frame

theorem Unattended.afterPasses (u : Unattended e) (n : Nat) : Unattended (e.afterPasses n) := by
  induction n with
  | zero => exact u
  | succ n ih => exact ih.pass

/-- A frame gets on by a sixtieth of an instruction at least. -/
theorem Unattended.grows (u : Unattended e) :
    e.credit + 1 ≤ frameRate * e.passCount + e.pass.credit := by
  have carried := (runFrame_carries e).1
  by_cases fails : e.FrameFails
  · -- what failed is counted, and that is more than was owed before
    have less := u.credit
    rw [passCount, if_pos fails, Nat.mul_add]
    omega
  · obtain ⟨frame, cycles⟩ := pass_of_not_fails fails
    have ended := (runFrame_of_quiet u.quiet).2.2.mpr fails
    have split := Nat.div_add_mod (e.credit + e.frequency) frameRate
    have frequency := u.frequency
    rw [frame, cycles, carried, (runFrame_completes ended).1, owed]
    omega

theorem Unattended.le_passedIn (u : Unattended e) (n : Nat) :
    n ≤ frameRate * e.passedIn n + (e.afterPasses n).credit := by
  induction n with
  | zero => exact Nat.zero_le _
  | succ n ih =>
      have next : (e.afterPasses n).credit + 1 ≤
          frameRate * (e.afterPasses n).passCount + (e.afterPasses (n + 1)).credit :=
        (u.afterPasses n).grows
      rw [passedIn_succ, Nat.mul_add]
      omega

/-! ## How a headless run ends -/

/-- Only a frame that fails reports a fault. -/
theorem runFrame_fault (q : e.debugger.Quiet) : e.runFrame.1.fault.isSome ↔ e.FrameFails := by
  have told : Reports (fun _ => True) fun event => event.fault.isSome ↔ event.reason = .fault :=
    { step := fun _ => trivial
      tick := fun _ => trivial
      skip := fun _ => trivial
      debugger := fun _ _ => trivial
      credit := fun _ _ _ => trivial
      report := fun {e} _ => by
        rcases h : e.machine.step with ⟨m, f | i⟩
        · rw [step_of_error h]
          exact iff_of_true rfl rfl
        · rw [step_of_ok h]
          refine iff_of_false ?_ (stepEvent_reason_ne_fault _ _ _)
          unfold stepEvent
          split <;> exact Bool.noConfusion
      quiet := fun other none => iff_of_false (by rw [none]; nofun) other
      cycles := fun _ h => h }
  exact (told.runFrame trivial).trans (runFrame_of_quiet q).2.1

/-- A headless run of `e` that ended behind `n` frames. Before each of them the steps were not
reached yet, and where failures halt the run none of these frames failed. -/
structure EndedBehind (e : Emulator) (steps : Int) (onFault : OnFault) (n : Nat)
    (run : HeadlessRun) : Prop where
  short : ∀ k < n, (e.passedIn k : Int) < steps
  clean : onFault = .halt → ∀ k < n, ¬ (e.afterPasses k).FrameFails
  ending : (run.ending = .finished ∧ steps ≤ e.passedIn n ∧ run.executed = e.passedIn n ∧
      run.emulator = e.afterPasses n) ∨
    ((∃ f, run.ending = .halted f) ∧ onFault = .halt ∧ (e.passedIn n : Int) < steps ∧
      (e.afterPasses n).FrameFails)

theorem headlessOn_ends (u : Unattended e) {steps : Int} {onFault : OnFault} {n frames : Nat}
    {skipped : List Fault} (short : ∀ k < n, (e.passedIn k : Int) < steps)
    (clean : onFault = .halt → ∀ k < n, ¬ (e.afterPasses k).FrameFails)
    (enough : frameRate * (steps.toNat + 1) ≤ n + frames) :
    ∃ n', EndedBehind e steps onFault n'
      (headlessOn steps onFault (e.passedIn n) skipped (e.afterPasses n) frames) := by
  induction frames generalizing n skipped with
  | zero =>
      have grown := u.le_passedIn n
      have owed := (u.afterPasses n).credit
      have reached : steps ≤ e.passedIn n := by
        rw [Nat.mul_add] at enough
        unfold frameRate at *
        omega
      rw [headlessOn, if_pos reached]
      exact ⟨n, short, clean, Or.inl ⟨rfl, reached, rfl, rfl⟩⟩
  | succ frames ih =>
      rw [headlessOn]
      by_cases reached : steps ≤ e.passedIn n
      · rw [if_pos reached]
        exact ⟨n, short, clean, Or.inl ⟨rfl, reached, rfl, rfl⟩⟩
      · rw [if_neg reached]
        have here : (e.passedIn n : Int) < steps := Int.not_le.mp reached
        have short' : ∀ k < n + 1, (e.passedIn k : Int) < steps := fun k less => by
          rcases Nat.lt_succ_iff_lt_or_eq.mp less with before | rfl
          · exact short k before
          · exact here
        have told := runFrame_fault (u.afterPasses n).quiet
        dsimp only
        cases fault : (e.afterPasses n).runFrame.1.fault with
        | none =>
            rw [fault] at told
            have well : ¬ (e.afterPasses n).FrameFails := fun fails => by
              cases told.mpr fails
            obtain ⟨frame, cycles⟩ := pass_of_not_fails well
            rw [← frame, ← cycles, ← passedIn_succ]
            refine ih short' (fun halt k less => ?_) (by omega)
            rcases Nat.lt_succ_iff_lt_or_eq.mp less with before | rfl
            · exact clean halt k before
            · exact well
        | some f =>
            rw [fault] at told
            have fails : (e.afterPasses n).FrameFails := told.mp rfl
            cases onFault with
            | halt => exact ⟨n, short, clean, Or.inr ⟨⟨f, rfl⟩, rfl, here, fails⟩⟩
            | skip =>
                have frame : (e.afterPasses n).pass = _ := if_pos fails
                have cycles : (e.afterPasses n).passCount =
                    (e.afterPasses n).runFrame.1.cycles + 1 := by
                  rw [passCount, if_pos fails]
                dsimp only
                rw [← frame, Nat.add_assoc, ← cycles, ← passedIn_succ]
                exact ih short' (fun halts => OnFault.noConfusion halts) (by omega)

/-- Given its frames, a headless run ends. -/
theorem runHeadless_ends (u : Unattended e) (steps : Int) (onFault : OnFault) :
    ∃ n, EndedBehind e steps onFault n (e.runHeadless steps onFault) := by
  refine headlessOn_ends u (n := 0) (fun k less => absurd less (Nat.not_lt_zero k))
    (fun _ k less => absurd less (Nat.not_lt_zero k)) ?_
  have factor : frameRate ≤ frameRate * (max 255 e.machine.timers.delay.toNat + 1) :=
    Nat.le_mul_of_pos_right _ (Nat.succ_pos _)
  have product := Nat.mul_le_mul_left (steps.toNat + 1) factor
  rw [headlessFrames, Nat.zero_add, Nat.mul_comm frameRate]
  exact product

/-! ## When it is halted -/

theorem passedIn_mono (e : Emulator) : Monotone e.passedIn := by
  refine monotone_nat_of_le_succ fun n => ?_
  rw [passedIn_succ]
  exact Nat.le_add_right _ _

theorem Unattended.completes_iff (u : Unattended e) :
    e.Completes n ↔ ∀ k < n, ¬ (e.afterPasses k).FrameFails := by
  induction n with
  | zero =>
      exact iff_of_true (fun k less => absurd less (Nat.not_lt_zero k))
        (fun k less => absurd less (Nat.not_lt_zero k))
  | succ n ih =>
      rw [completes_succ_iff, ih, Nat.forall_lt_succ_right]
      refine and_congr_right fun well => ?_
      rw [← (afterPasses_of_not_fails well).1]
      exact (runFrame_of_quiet (u.afterPasses n).quiet).2.2

/-- Of the frames that are run until so many steps are reached, one fails. -/
def FailsWithin (e : Emulator) (steps : Int) : Prop :=
  ∃ n, e.Completes n ∧ (e.executedIn n : Int) < steps ∧ (e.afterFrames n).FrameFails

/-- A headless run that is not halted has counted its steps with as few frames as possible. -/
theorem Unattended.runHeadless_cases (u : Unattended e) (steps : Int) (onFault : OnFault) :
    (onFault = .halt ∧ e.FailsWithin steps ∧
        ∃ f, (e.runHeadless steps onFault).ending = .halted f) ∨
      (¬ (onFault = .halt ∧ e.FailsWithin steps) ∧
        (e.runHeadless steps onFault).ending = .finished ∧
        ∃ n, (∀ k < n, (e.passedIn k : Int) < steps) ∧ steps ≤ e.passedIn n ∧
          (e.runHeadless steps onFault).executed = e.passedIn n ∧
          (e.runHeadless steps onFault).emulator = e.afterPasses n) := by
  obtain ⟨n, short, clean, ⟨finished, reached, counted, there⟩ | ⟨halted, halts, less, fails⟩⟩ :=
    runHeadless_ends u steps onFault
  · refine Or.inr ⟨?_, finished, n, short, reached, counted, there⟩
    rintro ⟨halts, k, completes, before, fails⟩
    obtain ⟨same, executed⟩ := afterPasses_of_not_fails (u.completes_iff.mp completes)
    rw [← same] at fails
    rw [← executed] at before
    -- the frame that fails is one of those that were run, or comes behind the steps
    rcases Nat.lt_or_ge k n with earlier | later
    · exact clean halts k earlier fails
    · have grown := e.passedIn_mono later
      omega
  · obtain ⟨same, executed⟩ := afterPasses_of_not_fails (clean halts)
    rw [same] at fails
    rw [executed] at less
    exact Or.inl ⟨halts, ⟨n, u.completes_iff.mpr (clean halts), less, fails⟩, halted⟩

end Chip8.Emulator
