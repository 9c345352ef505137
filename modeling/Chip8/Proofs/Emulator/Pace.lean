import Mathlib.Algebra.BigOperators.Group.Finset.Basic
import Mathlib.Algebra.Order.BigOperators.Group.Finset
import Mathlib.Data.Rat.Floor
import Mathlib.Tactic.FieldSimp
import Chip8.Proofs.Debug.Check
import Chip8.Proofs.Emulator.Host

/-!
# The pace of frames

A frame executes the whole instructions that are owed and carries the rest over. So after any
number of frames neither an instruction is missing nor one too many was executed, at every
frequency: what was executed and what is still owed add up to what was owed at the beginning and
what the frames have brought. This is the invariant `conserved`, in sixtieths of an instruction;
all the rest reads floors and remainders off it.

The rest is put aside when a frame starts, so it does not matter how the frame ends.
-/

namespace Chip8.Emulator

open Chip8.Debug

variable {e : Emulator} {n : Nat}

/-! ## What a run counts -/

structure SamePace (e e' : Emulator) : Prop where
  ticks : e'.totalTicks = e.totalTicks
  credit : e'.credit = e.credit
  frequency : e'.frequency = e.frequency

theorem SamePace.trans {e' e'' : Emulator} (h : SamePace e e') (h' : SamePace e' e'') :
    SamePace e e'' :=
  ⟨h'.ticks.trans h.ticks, h'.credit.trans h.credit, h'.frequency.trans h.frequency⟩

theorem step_samePace (e : Emulator) : SamePace e e.step.2 := by
  rcases h : e.machine.step with ⟨m, f | i⟩
  · rw [step_of_error h]
    exact ⟨rfl, rfl, rfl⟩
  · rw [step_of_ok h]
    exact ⟨rfl, rfl, rfl⟩

theorem step_totalSteps (e : Emulator) :
    e.step.2.totalSteps = e.totalSteps + if e.step.1.reason = .fault then 0 else 1 := by
  rcases h : e.machine.step with ⟨m, f | i⟩
  · rw [step_of_error h]
    rfl
  · rw [step_of_ok h, if_neg (stepEvent_reason_ne_fault _ _ _)]

/-- The counts behind a run that had executed some instructions and had `left` to go. -/
structure Counted (e : Emulator) (executed left : Nat) (o : Event × Emulator) : Prop where
  pace : SamePace e o.2
  steps : o.2.totalSteps + executed = e.totalSteps + o.1.cycles
  spent : o.1.reason = .maxSteps → o.1.cycles = executed + left
  reason : o.1.reason ≠ .step

theorem counted_runOn (e : Emulator) (limit : Int) (stopOnKeyWait : Bool) (executed left : Nat) :
    Counted e executed left (e.runOn limit stopOnKeyWait executed left) := by
  induction left generalizing e executed with
  | zero => exact ⟨⟨rfl, rfl, rfl⟩, rfl, fun _ => rfl, fun h => Reason.noConfusion h⟩
  | succ left ih =>
      have looked : SamePace e e.checked := ⟨rfl, rfl, rfl⟩
      have pace := looked.trans (step_samePace e.checked)
      have steps : e.checked.step.2.totalSteps =
          e.totalSteps + if e.checked.step.1.reason = .fault then 0 else 1 :=
        step_totalSteps e.checked
      rw [runOn_succ]
      cases stop : e.stopBefore executed with
      | some event =>
          have early := Debugger.check_reason (Option.eq_some_of_filter_eq_some stop)
          refine ⟨⟨rfl, rfl, rfl⟩, rfl, fun spent => ?_, fun ended => ?_⟩
          · rw [show event.reason = .maxSteps from spent] at early
            simp at early
          · rw [show event.reason = .step from ended] at early
            simp at early
      | none =>
          dsimp only
          split
          · rename_i failed
            rw [if_pos failed] at steps
            refine ⟨pace.trans ⟨rfl, rfl, rfl⟩, ?_, fun spent => ?_, fun ended => ?_⟩
            · show e.checked.step.2.totalSteps + executed = e.totalSteps + executed
              rw [steps, Nat.add_zero]
            · exact Reason.noConfusion (failed.symm.trans spent)
            · exact Reason.noConfusion (failed.symm.trans ended)
          · rename_i went
            rw [if_neg went] at steps
            split
            · rename_i waits
              refine ⟨pace, ?_, fun spent => ?_, fun ended => ?_⟩
              · show e.checked.step.2.totalSteps + executed = e.totalSteps + (executed + 1)
                omega
              · exact Reason.noConfusion (waits.1.symm.trans spent)
              · exact Reason.noConfusion (waits.1.symm.trans ended)
            · have rest := ih e.checked.step.2 (executed + 1)
              refine ⟨pace.trans rest.pace, ?_, fun spent => ?_, rest.reason⟩
              · have := rest.steps
                omega
              · rw [rest.spent spent]
                omega

/-! ## What a frame counts -/

/-- However a frame ends: what it carries over, and what it counts. -/
theorem runFrame_carries (e : Emulator) :
    e.runFrame.2.credit = (e.credit + e.frequency) % frameRate ∧
      e.runFrame.2.frequency = e.frequency ∧
      e.runFrame.2.totalSteps = e.totalSteps + e.runFrame.1.cycles := by
  have run := counted_runOn e.frameStart e.owed false 0 e.owed
  rw [runFrame_eq]
  split
  · exact ⟨run.pace.credit, run.pace.frequency, run.steps⟩
  · exact ⟨run.pace.credit, run.pace.frequency, run.steps⟩

/-- A frame that ends normally has executed all that was owed, and then ticked. -/
theorem runFrame_completes (h : e.runFrame.1.reason = .step) :
    e.runFrame.1.cycles = e.owed ∧ e.runFrame.2.totalTicks = e.totalTicks + 1 := by
  have run := counted_runOn e.frameStart e.owed false 0 e.owed
  rw [runFrame_eq] at h ⊢
  by_cases ended : e.frameRun.1.reason = .maxSteps
  · rw [if_neg (not_not_intro ended)]
    have spent : e.frameRun.1.cycles = 0 + e.owed := run.spent ended
    have ticks : e.frameRun.2.totalTicks = e.totalTicks := run.pace.ticks
    refine ⟨spent.trans (Nat.zero_add _), ?_⟩
    show e.frameRun.2.totalTicks + 1 = e.totalTicks + 1
    rw [ticks]
  · rw [if_pos ended] at h
    exact absurd h run.reason

/-! ## Frames in a row -/

/-- The emulator after so many frames, however they end. -/
def afterFrames (e : Emulator) : Nat → Emulator
  | 0 => e
  | n + 1 => (e.afterFrames n).runFrame.2

/-- So many frames in a row end normally. -/
def Completes (e : Emulator) (n : Nat) : Prop :=
  ∀ k < n, (e.afterFrames k).runFrame.1.reason = .step

instance (e : Emulator) (n : Nat) : Decidable (e.Completes n) :=
  inferInstanceAs (Decidable (∀ k < n, (e.afterFrames k).runFrame.1.reason = .step))

/-- The instructions that so many frames count in their events. -/
def executedIn (e : Emulator) (n : Nat) : Nat :=
  ∑ k ∈ Finset.range n, (e.afterFrames k).runFrame.1.cycles

theorem executedIn_succ (e : Emulator) (n : Nat) :
    e.executedIn (n + 1) = e.executedIn n + (e.afterFrames n).runFrame.1.cycles :=
  Finset.sum_range_succ _ _

theorem completes_succ_iff :
    e.Completes (n + 1) ↔ e.Completes n ∧ (e.afterFrames n).runFrame.1.reason = .step :=
  Nat.forall_lt_succ_right

theorem afterFrames_frequency (e : Emulator) (n : Nat) :
    (e.afterFrames n).frequency = e.frequency := by
  induction n with
  | zero => rfl
  | succ n ih => exact (runFrame_carries _).2.1.trans ih

theorem afterFrames_totalSteps (e : Emulator) (n : Nat) :
    (e.afterFrames n).totalSteps = e.totalSteps + e.executedIn n := by
  induction n with
  | zero => rfl
  | succ n ih =>
      rw [executedIn_succ, ← Nat.add_assoc, ← ih]
      exact (runFrame_carries _).2.2

theorem afterFrames_totalTicks (c : e.Completes n) :
    (e.afterFrames n).totalTicks = e.totalTicks + n := by
  induction n with
  | zero => rfl
  | succ n ih =>
      obtain ⟨before, last⟩ := completes_succ_iff.mp c
      rw [← Nat.add_assoc, ← ih before]
      exact (runFrame_completes last).2

theorem afterFrames_credit_lt (h : e.credit < frameRate) (n : Nat) :
    (e.afterFrames n).credit < frameRate := by
  cases n with
  | zero => exact h
  | succ n =>
      have carried : (e.afterFrames (n + 1)).credit = _ := (runFrame_carries (e.afterFrames n)).1
      rw [carried]
      exact Nat.mod_lt _ (by decide)

/-- Nothing is lost and nothing is made: what the frames executed and what is still owed was owed
before or came with a frame. -/
theorem conserved (c : e.Completes n) :
    frameRate * e.executedIn n + (e.afterFrames n).credit = e.credit + n * e.frequency := by
  induction n with
  | zero => simp [executedIn, afterFrames]
  | succ n ih =>
      obtain ⟨before, last⟩ := completes_succ_iff.mp c
      have carried : (e.afterFrames (n + 1)).credit =
          ((e.afterFrames n).credit + (e.afterFrames n).frequency) % frameRate :=
        (runFrame_carries _).1
      have split := Nat.div_add_mod ((e.afterFrames n).credit + e.frequency) frameRate
      rw [executedIn_succ, (runFrame_completes last).1, owed, carried, afterFrames_frequency,
        Nat.mul_add, Nat.succ_mul, Nat.add_assoc, split, ← Nat.add_assoc, ih before, Nat.add_assoc]

/-- A call that ran all its frames ran them one after the other. -/
theorem runFrames_of_completed (h : (e.runFrames (n : Nat)).1.reason = .step) :
    e.Completes n ∧ e.runFrames (n : Nat) =
      ((e.afterFrames n).completed (e.executedIn n), e.afterFrames n) := by
  induction n with
  | zero => exact ⟨fun k less => absurd less (Nat.not_lt_zero k), rfl⟩
  | succ n ih =>
      rw [runFrames_succ] at h ⊢
      by_cases early : (e.runFrames (n : Nat)).1.reason ≠ .step
      · rw [nextFrame, if_pos early] at h
        exact absurd h early
      · obtain ⟨before, there⟩ := ih (not_not.mp early)
        rw [there, nextFrame, if_neg (by simp [completed])] at h ⊢
        by_cases last : (e.afterFrames n).runFrame.1.reason = .step
        · rw [if_neg (not_not_intro last), executedIn_succ]
          exact ⟨completes_succ_iff.mpr ⟨before, last⟩, rfl⟩
        · rw [if_pos last] at h
          exact absurd h last

/-! ## Fractions of an instruction -/

/-- What is owed to the next frame, in instructions. -/
def stepCredit (e : Emulator) : ℚ := e.credit / frameRate

/-- What is owed in all by the end of so many frames. -/
theorem owed_eq (e : Emulator) (n : Nat) :
    e.stepCredit + n * e.frequency / 60 = ((e.credit + n * e.frequency : Nat) : ℚ) / frameRate := by
  rw [stepCredit, Nat.cast_add, Nat.cast_mul, add_div]
  rfl

/-- So many frames that led to an emulator executed what was owed but for a fraction, and that
fraction is still owed. -/
structure KeepsPace (e : Emulator) (n executed : Nat) (e' : Emulator) : Prop where
  whole : (executed : ℤ) = ⌊e.stepCredit + n * e.frequency / 60⌋
  totalSteps : e'.totalSteps = e.totalSteps + executed
  totalTicks : e'.totalTicks = e.totalTicks + n
  credit : e'.stepCredit = Int.fract (e.stepCredit + n * e.frequency / 60)

theorem keepsPace (h : e.credit < frameRate) (c : e.Completes n) :
    KeepsPace e n (e.executedIn n) (e.afterFrames n) := by
  have kept := conserved c
  have rest := afterFrames_credit_lt h n
  refine ⟨?_, afterFrames_totalSteps e n, afterFrames_totalTicks c, ?_⟩
  · have whole : e.executedIn n = (e.credit + n * e.frequency) / frameRate := by
      rw [← kept, Nat.mul_add_div (by decide), Nat.div_eq_of_lt rest, Nat.add_zero]
    rw [owed_eq, Rat.floor_natCast_div_natCast, whole, Int.natCast_div]
  · have part : (e.afterFrames n).credit = (e.credit + n * e.frequency) % frameRate := by
      rw [← kept, Nat.mul_add_mod, Nat.mod_eq_of_lt rest]
    rw [owed_eq, Int.fract_div_natCast_eq_div_natCast_mod, stepCredit, part]

/-- A frame executes the whole instructions of its share, or one more. -/
theorem runFrame_cycles_eq (h : e.credit < frameRate) (c : e.runFrame.1.reason = .step) :
    (e.runFrame.1.cycles : ℤ) = ⌊(e.frequency : ℚ) / 60⌋ ∨
      (e.runFrame.1.cycles : ℤ) = ⌈(e.frequency : ℚ) / 60⌉ := by
  have floor : ⌊(e.frequency : ℚ) / 60⌋ = (e.frequency : ℤ) / 60 :=
    Rat.floor_natCast_div_natCast e.frequency 60
  have ceil : ⌈(e.frequency : ℚ) / 60⌉ = -(-(e.frequency : ℤ) / 60) :=
    Rat.ceil_natCast_div_natCast e.frequency 60
  rw [floor, ceil, (runFrame_completes c).1, owed]
  unfold frameRate at h ⊢
  omega

/-- No host makes an emulator owe a whole instruction before a frame. -/
theorem Reachable.credit_lt (r : Reachable e) : e.credit < frameRate := by
  have kept : HostKept fun e => e.credit < frameRate :=
    { step := fun {e} h => (step_samePace e).credit ▸ h
      tick := fun h => h
      skip := fun h => h
      debugger := fun _ h => h
      credit := fun _ less _ => less
      anyMachine := fun _ h => h
      reset := fun _ _ => show 0 < frameRate by decide
      trace := fun _ _ h => h }
  exact kept.reachable (fun _ _ _ => show 0 < frameRate by decide) r

theorem stepCredit_range (h : e.credit < frameRate) :
    0 ≤ e.stepCredit ∧ e.stepCredit < 1 ∧ ∃ k : ℤ, 60 * e.stepCredit = k := by
  have rate : (frameRate : ℚ) = 60 := rfl
  rw [stepCredit, rate]
  refine ⟨by positivity, ?_, e.credit, ?_⟩
  · rw [div_lt_one (by norm_num)]
    exact_mod_cast h
  · rw [mul_div_cancel₀ _ (by norm_num)]
    rfl

/-- **Frames keep the pace.** Less than an instruction is owed before a frame, in sixtieths. Frames
in a row that end normally execute what is owed by then but for a fraction, each of them its whole
share or one more, and sixty of them what a second asks for. So does a call for a duration. What
a frame carries over does not depend on how it ends. -/
theorem frames_keep_pace (r : Reachable e) :
    (0 ≤ e.stepCredit ∧ e.stepCredit < 1 ∧ ∃ k : ℤ, 60 * e.stepCredit = k) ∧
      (∀ n, e.Completes n →
        KeepsPace e n (e.executedIn n) (e.afterFrames n) ∧
          ∀ k < n,
            ((e.afterFrames k).runFrame.1.cycles : ℤ) = ⌊(e.frequency : ℚ) / 60⌋ ∨
              ((e.afterFrames k).runFrame.1.cycles : ℤ) = ⌈(e.frequency : ℚ) / 60⌉) ∧
      (e.Completes 60 → e.executedIn 60 = e.frequency) ∧
      (∀ frames : Int,
        (∀ seconds, framesIn seconds = .ok frames →
          e.runFor seconds = .ok (e.runFrames frames)) ∧
          ((e.runFrames frames).1.reason = .step →
            e.Completes frames.toNat ∧ (e.runFrames frames).2 = e.afterFrames frames.toNat ∧
              KeepsPace e frames.toNat (e.runFrames frames).1.cycles (e.runFrames frames).2)) ∧
      e.runFrame.2.stepCredit = Int.fract (e.stepCredit + e.frequency / 60) := by
  have less := r.credit_lt
  refine ⟨stepCredit_range less, fun n c => ⟨keepsPace less c, fun k before => ?_⟩, fun c => ?_,
    fun frames => ⟨fun seconds asked => ?_, fun ended => ?_⟩, ?_⟩
  · have rest := afterFrames_credit_lt less k
    rw [← afterFrames_frequency e k]
    exact runFrame_cycles_eq rest (c k before)
  · have kept := conserved c
    have rest := afterFrames_credit_lt less 60
    unfold frameRate at kept less rest
    omega
  · rw [runFor, asked]
    rfl
  · have same : e.runFrames (frames.toNat : Nat) = e.runFrames frames := rfl
    rw [← same] at ended ⊢
    obtain ⟨c, there⟩ := runFrames_of_completed ended
    rw [there]
    exact ⟨c, rfl, keepsPace less c⟩
  · have one := owed_eq e 1
    rw [Nat.cast_one, one_mul, one_mul] at one
    rw [one, Int.fract_div_natCast_eq_div_natCast_mod, stepCredit, (runFrame_carries e).1]

/-- Forty instructions a second, behind the first frame: it was empty, and two thirds of an
instruction are owed. -/
def betweenFrames : Emulator := (loaded .wrap 40 [0x12, 0x00]).after .runFrame

theorem betweenFrames_keeps_pace :
    betweenFrames.credit = 40 ∧ betweenFrames.executedIn 3 = 2 ∧ betweenFrames.Completes 3 ∧
      KeepsPace betweenFrames 3 (betweenFrames.executedIn 3) (betweenFrames.afterFrames 3) ∧
      (betweenFrames.runFrames 3).1.reason = .step ∧
      KeepsPace betweenFrames 3 (betweenFrames.runFrames 3).1.cycles
        (betweenFrames.runFrames 3).2 := by
  have reachable : Reachable betweenFrames :=
    (reachable_loaded (by decide) (by decide)).after .runFrame
  obtain ⟨credit, executed, completes, ended⟩ :
      betweenFrames.credit = 40 ∧ betweenFrames.executedIn 3 = 2 ∧ betweenFrames.Completes 3 ∧
        (betweenFrames.runFrames 3).1.reason = .step := by decide +kernel
  obtain ⟨-, paced, -, asked, -⟩ := frames_keep_pace reachable
  exact ⟨credit, executed, completes, (paced 3 completes).1, ended, ((asked 3).2 ended).2.2⟩

end Chip8.Emulator
