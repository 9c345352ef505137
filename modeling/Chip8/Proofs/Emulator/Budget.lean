import Mathlib.Algebra.Order.Floor.Div
import Chip8.Proofs.Emulator.Accounting
import Chip8.Proofs.Emulator.Iteration

/-!
# The budget of a headless run

Without conditions only few frames of a headless run count nothing: at a low frequency those in
which nothing is owed yet, and the one that a pending break request stops. A breakpoint stops no
frame before its first instruction. So the number of frames is bounded by the steps to go, each with
as many frames as it takes to owe an instruction, and the count overshoots by less than the largest
frame.

The measure takes the credit in: a frame in which nothing is owed makes up for itself by what it
adds to the credit.
-/

namespace Chip8

open Chip8.Debug

/-- What a frame with this event adds to the count of a run that skips what fails. -/
def Debug.Event.counted (event : Event) : Nat := event.cycles + if event.fault.isSome then 1 else 0

namespace Emulator

variable {e : Emulator}

/-! ## What a frame executes -/

theorem afterSteps_event_congr {e' : Emulator} (h : e'.machine = e.machine) (k : Nat) :
    (e'.afterSteps k).step.1 = (e.afterSteps k).step.1 :=
  step_event_congr (afterSteps_machine h k)

theorem step_fault_eq {f : Fault} (h : e.step.1.fault = some f) : e.step.1 = faultEvent f := by
  rcases hm : e.machine.step with ⟨m, g | i⟩
  · rw [step_of_error hm] at h ⊢
    exact congrArg faultEvent (Option.some.inj h)
  · rw [step_of_ok hm] at h
    unfold stepEvent at h
    split at h <;> cases h

theorem fault_of_reason (failed : e.step.1.reason = .fault) : e.step.1.fault.isSome := by
  obtain ⟨m, f, hm⟩ := (step_reason_eq_fault_iff e).mp failed
  rw [step_of_error hm]
  rfl

/-- What a run executed that was to execute so many instructions: all of them, or those before one
that fails, or those before the debugger stopped it. -/
structure Went (e : Emulator) (left k : Nat) (o : Event × Emulator) : Prop where
  le : k ≤ left
  succeeded : ∀ j < k, (e.afterSteps j).step.1.reason ≠ .fault
  failed : ∀ f, o.1.fault = some f →
    k < left ∧ (e.afterSteps k).step.1 = faultEvent f ∧ o.2.step.1 = faultEvent f
  stopped : o.1.fault = none → k < left →
    o.1.reason = .interrupt ∨ o.1.reason = .breakpoint ∨ o.1.reason = .condition

section Went

variable {left k executed : Nat} {o : Event × Emulator}

/-- A run that executes nothing, because it may not, or because the debugger stops it. -/
theorem Went.nothing (fault : o.1.fault = none)
    (stopped : 0 < left →
      o.1.reason = .interrupt ∨ o.1.reason = .breakpoint ∨ o.1.reason = .condition) :
    Went e left 0 o where
  le := Nat.zero_le left
  succeeded j less := absurd less (Nat.not_lt_zero j)
  failed f told := by
    rw [fault] at told
    cases told
  stopped _ := stopped

theorem Went.failing (h : e.checked.step.1.reason = .fault) :
    Went e (left + 1) 0 (e.checked.step.2.stopped e.checked.step.1 executed) where
  le := Nat.zero_le _
  succeeded j less := absurd less (Nat.not_lt_zero j)
  failed f told := by
    have event : e.checked.step.1 = faultEvent f := step_fault_eq told
    have looked : e.checked.step.1 = e.step.1 := step_event_congr rfl
    have stays : (e.checked.step.2.stopped e.checked.step.1 executed).2.machine =
        e.checked.step.2.machine := rfl
    refine ⟨Nat.succ_pos left, looked ▸ event, ?_⟩
    rw [step_event_congr stays, (step_again h).2, event]
  stopped untold := by
    have untold : e.checked.step.1.fault = none := untold
    have told := fault_of_reason h
    rw [untold] at told
    cases told

/-- What a run executes behind its first instruction, it executes in all. -/
theorem Went.later {e' : Emulator} (rest : Went e' left k o)
    (machine : e'.machine = e.step.2.machine) (first : e.step.1.reason ≠ .fault) :
    Went e (left + 1) (k + 1) o := by
  have same (j : Nat) : (e'.afterSteps j).step.1 = (e.afterSteps (j + 1)).step.1 :=
    afterSteps_event_congr machine j
  refine ⟨Nat.succ_le_succ rest.le, ?_, ?_, ?_⟩
  · rintro (_ | j) less
    · exact first
    · exact same j ▸ rest.succeeded j (Nat.lt_of_succ_lt_succ less)
  · intro f told
    obtain ⟨less, here, still⟩ := rest.failed f told
    exact ⟨Nat.succ_lt_succ less, same k ▸ here, still⟩
  · intro untold less
    exact rest.stopped untold (Nat.lt_of_succ_lt_succ less)

end Went

theorem runOn_went (e : Emulator) (limit : Int) (executed left : Nat) :
    ∃ k, (e.runOn limit false executed left).1.cycles = executed + k ∧
      Went e left k (e.runOn limit false executed left) := by
  induction left generalizing e executed with
  | zero => exact ⟨0, rfl, Went.nothing rfl fun less => absurd less (Nat.lt_irrefl 0)⟩
  | succ left ih =>
      rw [runOn_succ]
      cases stop : e.stopBefore executed with
      | some event =>
          obtain ⟨reason, message, rfl, own⟩ :=
            Debugger.check_event (Option.eq_some_of_filter_eq_some stop)
          exact ⟨0, rfl, Went.nothing rfl fun _ => own⟩
      | none =>
          dsimp only
          by_cases failed : e.checked.step.1.reason = .fault
          · rw [if_pos failed]
            exact ⟨0, rfl, Went.failing failed⟩
          · rw [if_neg failed, if_neg (fun waits => Bool.noConfusion waits.2)]
            obtain ⟨k, cycles, rest⟩ := ih e.checked.step.2 (executed + 1)
            have machine : e.checked.step.2.machine = e.step.2.machine := by
              rw [step_machine, step_machine]
              rfl
            have first : e.step.1.reason ≠ .fault := by
              rw [← step_event_congr (show e.checked.machine = e.machine from rfl)]
              exact failed
            exact ⟨k + 1, by omega, rest.later machine first⟩

/-- A frame executes as many instructions as it counts. -/
theorem runFrame_went (e : Emulator) : Went e e.owed e.runFrame.1.cycles e.runFrame := by
  obtain ⟨k, cycles, le, succeeded, failed, stopped⟩ := runOn_went e.frameStart e.owed 0 e.owed
  have cycles : e.frameRun.1.cycles = k := cycles.trans (Nat.zero_add k)
  have start : e.frameStart.machine = e.machine := rfl
  have same (j : Nat) : (e.frameStart.afterSteps j).step.1 = (e.afterSteps j).step.1 :=
    afterSteps_event_congr start j
  have succeeded : ∀ j < k, (e.afterSteps j).step.1.reason ≠ .fault :=
    fun j less => same j ▸ succeeded j less
  rw [runFrame_eq]
  split
  · rw [cycles]
    exact ⟨le, succeeded, fun f told => same k ▸ failed f told, stopped⟩
  · rename_i spent
    have whole := (counted_runOn e.frameStart e.owed false 0 e.owed).spent (not_not.mp spent)
    show Went e e.owed e.frameRun.1.cycles _
    rw [cycles]
    exact ⟨le, succeeded, nofun, fun _ less => by omega⟩

/-! ## What stops a frame -/

/-- What a run leaves of the conditions and of a break request. -/
structure Asked (e : Emulator) (left : Nat) (e' : Emulator) : Prop where
  conditions : e'.debugger.conditions = e.debugger.conditions
  waits : left = 0 → e'.debugger.breakRequested = e.debugger.breakRequested
  answered : 0 < left → e'.debugger.breakRequested = false

theorem step_debugger (e : Emulator) :
    e.step.2.debugger.conditions = e.debugger.conditions ∧
      e.step.2.debugger.breakRequested = e.debugger.breakRequested := by
  rcases h : e.machine.step with ⟨m, f | i⟩
  · rw [step_of_error h]
    exact ⟨rfl, rfl⟩
  · rw [step_of_ok h]
    exact ⟨rfl, rfl⟩

theorem runOn_asked (e : Emulator) (limit : Int) (executed left : Nat) :
    Asked e left (e.runOn limit false executed left).2 := by
  induction left generalizing e executed with
  | zero => exact ⟨rfl, fun _ => rfl, fun pos => absurd pos (Nat.lt_irrefl 0)⟩
  | succ left ih =>
      have conditions : e.checked.debugger.conditions = e.debugger.conditions :=
        Debugger.check_conditions _ _
      have request : e.checked.debugger.breakRequested = false := Debugger.check_breakRequested _ _
      obtain ⟨kept, still⟩ := step_debugger e.checked
      rw [conditions] at kept
      rw [request] at still
      rw [runOn_succ]
      cases e.stopBefore executed with
      | some event => exact ⟨conditions, nofun, fun _ => request⟩
      | none =>
          dsimp only
          split
          · exact ⟨kept, nofun, fun _ => still⟩
          · rw [if_neg (fun waits => Bool.noConfusion waits.2)]
            obtain ⟨later, waits, answered⟩ := ih e.checked.step.2 (executed + 1)
            refine ⟨later.trans kept, nofun, fun _ => ?_⟩
            rcases Nat.eq_zero_or_pos left with none | pos
            · exact (waits none).trans still
            · exact answered pos

theorem runFrame_asked (e : Emulator) : Asked e e.owed e.runFrame.2 := by
  have run : Asked e.frameStart e.owed e.frameRun.2 := runOn_asked e.frameStart e.owed 0 e.owed
  rw [runFrame_eq]
  split
  · exact ⟨run.conditions, run.waits, run.answered⟩
  · exact ⟨run.conditions, run.waits, run.answered⟩

theorem counted_le_owed (e : Emulator) : e.runFrame.1.counted ≤ e.owed := by
  have went := runFrame_went e
  unfold Event.counted
  cases fault : e.runFrame.1.fault with
  | none => exact went.le
  | some f => exact (went.failed f fault).1

theorem stopBefore_start (unconditional : ∀ c ∈ e.debugger.conditions, c = none)
    (unasked : e.debugger.breakRequested = false) : e.stopBefore 0 = none := by
  have unmet : ¬ e.debugger.Met e.machine := by
    rintro ⟨c, there, -⟩
    cases unconditional _ there
  rw [stopBefore_eq_none_iff, stopReason, if_neg (by rw [unasked]; decide),
    if_neg (fun behind => absurd behind.1 (Nat.lt_irrefl 0)), if_neg (fun met => unmet met.1)]

/-- A frame that is neither empty nor interrupted counts something. -/
theorem counted_pos (unconditional : ∀ c ∈ e.debugger.conditions, c = none)
    (unasked : e.debugger.breakRequested = false) (owes : 0 < e.owed) :
    0 < e.runFrame.1.counted := by
  have ran : e.frameRun = e.frameStart.runOn e.owed false 0 (e.owed - 1 + 1) := by
    rw [Nat.sub_add_cancel owes]
    rfl
  rw [runOn_succ, stopBefore_start (e := e.frameStart) unconditional unasked] at ran
  dsimp only at ran
  unfold Event.counted
  rw [runFrame_eq]
  by_cases ended : e.frameRun.1.reason = .maxSteps
  · have spent := (counted_runOn e.frameStart e.owed false 0 e.owed).spent ended
    rw [if_neg (not_not_intro ended)]
    show 0 < e.frameRun.1.cycles + _
    rw [show e.frameRun.1.cycles = 0 + e.owed from spent]
    omega
  · rw [if_pos ended, ran]
    by_cases failed : e.frameStart.checked.step.1.reason = .fault
    · rw [if_pos failed]
      show 0 < 0 + if e.frameStart.checked.step.1.fault.isSome then 1 else 0
      rw [if_pos (fault_of_reason failed)]
      exact Nat.one_pos
    · rw [if_neg failed, if_neg (fun waits => Bool.noConfusion waits.2)]
      obtain ⟨k, cycles, -⟩ :=
        runOn_went e.frameStart.checked.step.2 e.owed (0 + 1) (e.owed - 1)
      omega

/-! ## Frames get on -/

/-- What a headless run needs to get on at a frequency, and keeps. -/
structure Steady (f : Nat) (e : Emulator) : Prop where
  unconditional : ∀ c ∈ e.debugger.conditions, c = none
  frequency : e.frequency = f
  pos : 0 < f
  credit : e.credit < frameRate

theorem Reachable.steady (r : Reachable e) (unconditional : ∀ c ∈ e.debugger.conditions, c = none) :
    Steady e.frequency e := by
  have kept : HostKept fun e => 0 < e.frequency :=
    { step := fun {e} pos => (step_samePace e).frequency ▸ pos
      tick := fun pos => pos
      skip := fun pos => pos
      debugger := fun _ pos => pos
      credit := fun _ _ pos => pos
      anyMachine := fun _ pos => pos
      reset := fun _ pos => pos
      trace := fun _ _ pos => pos }
  exact ⟨unconditional, rfl, kept.reachable (fun _ _ pos => pos) r, r.credit_lt⟩

/-- The frames in which something must happen yet: one for each instruction, and one for a break
request. -/
def toGo (steps : Int) (executed : Nat) (e : Emulator) : Nat :=
  (steps - executed).toNat + if e.debugger.breakRequested then 1 else 0

variable {f : Nat} {steps : Int} {onFault : OnFault} {executed frames idle : Nat}
  {skipped : List Fault}

namespace Steady

theorem runFrame (s : Steady f e) : Steady f e.runFrame.2 := by
  obtain ⟨credit, frequency, -⟩ := runFrame_carries e
  refine ⟨?_, frequency.trans s.frequency, s.pos, ?_⟩
  · rw [(runFrame_asked e).conditions]
    exact s.unconditional
  · rw [credit]
    exact Nat.mod_lt _ (by decide)

theorem skip (s : Steady f e) : Steady f e.skipInstruction :=
  ⟨s.unconditional, s.frequency, s.pos, s.credit⟩

/-- No frame counts more than its share of a second, rounded up. -/
theorem counted_le (s : Steady f e) : e.runFrame.1.counted ≤ f ⌈/⌉ frameRate := by
  have credit := s.credit
  refine (counted_le_owed e).trans ?_
  rw [owed, s.frequency, Nat.ceilDiv_eq_add_pred_div]
  exact Nat.div_le_div_right (by omega)

/-- Frames in a row that owe nothing are fewer than those it takes to owe an instruction. -/
theorem idle_lt (s : Steady f e) (idled : f * idle ≤ e.credit) : idle < frameRate ⌈/⌉ f := by
  have enough : frameRate ≤ f * (frameRate ⌈/⌉ f) := le_smul_ceilDiv s.pos
  exact Nat.lt_of_mul_lt_mul_left (idled.trans_lt (s.credit.trans_le enough))

/-- A frame that owes nothing is one more of those that have made up the credit. Any other leaves
one frame less to go. -/
theorem gets_on (s : Steady f e) (idled : f * idle ≤ e.credit) (short : (executed : Int) < steps)
    (enough : (frameRate ⌈/⌉ f) * toGo steps executed e ≤ frames + 1 + idle) :
    ∃ idle', f * idle' ≤ e.runFrame.2.credit ∧
      (frameRate ⌈/⌉ f) * toGo steps (executed + e.runFrame.1.counted) e.runFrame.2 ≤
        frames + idle' := by
  obtain ⟨-, waits, answered⟩ := runFrame_asked e
  have most := counted_le_owed e
  have credit := (runFrame_carries e).1
  rcases Nat.eq_zero_or_pos e.owed with empty | owes
  · have less : e.credit + e.frequency < frameRate := Nat.lt_of_div_eq_zero (by decide) empty
    rw [Nat.mod_eq_of_lt less] at credit
    have none : e.runFrame.1.counted = 0 := Nat.le_zero.mp (empty ▸ most)
    refine ⟨idle + 1, ?_, ?_⟩
    · rw [credit, s.frequency, Nat.mul_succ]
      exact Nat.add_le_add_right idled _
    · rw [none, toGo, waits empty]
      show (frameRate ⌈/⌉ f) * toGo steps executed e ≤ _
      omega
  · have fewer : toGo steps (executed + e.runFrame.1.counted) e.runFrame.2 + 1 ≤
        toGo steps executed e := by
      unfold toGo
      rw [answered owes]
      cases asked : e.debugger.breakRequested with
      | true =>
          rw [if_pos rfl, if_neg Bool.false_ne_true]
          omega
      | false =>
          have some := counted_pos s.unconditional asked owes
          rw [if_neg Bool.false_ne_true]
          omega
    have product := Nat.mul_le_mul_left (frameRate ⌈/⌉ f) fewer
    have idles := s.idle_lt idled
    rw [Nat.mul_succ] at product
    exact ⟨0, Nat.zero_le _, by omega⟩

end Steady

/-! ## How many frames, and how many instructions -/

theorem counted_of_none {event : Event} (h : event.fault = none) :
    event.counted = event.cycles := by
  rw [Event.counted, h]
  rfl

theorem counted_of_some {event : Event} {g : Fault} (h : event.fault = some g) :
    event.counted = event.cycles + 1 := by
  rw [Event.counted, h]
  rfl

/-- Frames that are enough for all that is to go end the run. -/
theorem Steady.headlessOn_ends (s : Steady f e) (idled : f * idle ≤ e.credit)
    (enough : (frameRate ⌈/⌉ f) * toGo steps executed e ≤ frames + idle) :
    (headlessOn steps onFault executed skipped e frames).ending ≠ .stuck := by
  fun_induction headlessOn steps onFault executed skipped e frames generalizing idle
  case case1 | case4 => nofun
  case case2 executed skipped e short =>
    -- something is to go, and that would take more frames than have made up the credit
    have one : 1 ≤ toGo steps executed e := by
      unfold toGo
      omega
    have product := Nat.mul_le_mul_left (frameRate ⌈/⌉ f) one
    have idles := s.idle_lt idled
    omega
  case case3 executed skipped e short frames event e' ran executed' well ih =>
    obtain ⟨rfl, rfl⟩ := Prod.ext_iff.mp ran
    obtain ⟨idle', idled', enough'⟩ := s.gets_on idled (Int.not_le.mp short) enough
    rw [counted_of_none well] at enough'
    exact ih s.runFrame idled' enough'
  case case5 executed skipped e short frames event e' ran executed' g skips failed ih =>
    obtain ⟨rfl, rfl⟩ := Prod.ext_iff.mp ran
    obtain ⟨idle', idled', enough'⟩ := s.gets_on idled (Int.not_le.mp short) enough
    rw [counted_of_some failed, ← Nat.add_assoc] at enough'
    subst skips
    exact ih s.runFrame.skip idled' enough'

/-- A headless run is given frames enough. -/
theorem Steady.le_headlessFrames (s : Steady f e) (steps : Int) :
    (steps.toNat + 1) * (frameRate ⌈/⌉ f) ≤ e.headlessFrames steps := by
  have second : frameRate ⌈/⌉ f ≤ frameRate :=
    (ceilDiv_le_iff_le_smul s.pos).mpr (Nat.le_mul_of_pos_left _ s.pos)
  refine Nat.mul_le_mul_left _ (second.trans ?_)
  exact Nat.le_mul_of_pos_right _ (Nat.succ_pos _)

/-- A run that has ended makes no use of more frames. -/
theorem headlessOn_of_le {more : Nat}
    (ended : (headlessOn steps onFault executed skipped e frames).ending ≠ .stuck)
    (le : frames ≤ more) :
    headlessOn steps onFault executed skipped e more =
      headlessOn steps onFault executed skipped e frames := by
  induction frames generalizing e executed skipped more with
  | zero =>
      by_cases reached : steps ≤ executed
      · unfold headlessOn
        rw [if_pos reached, if_pos reached]
      · rw [headlessOn, if_neg reached] at ended
        exact absurd rfl ended
  | succ frames ih =>
      obtain ⟨more, rfl⟩ : ∃ m, more = m + 1 := ⟨more - 1, by omega⟩
      have le : frames ≤ more := Nat.le_of_succ_le_succ le
      rw [headlessOn] at ended ⊢
      rw [headlessOn]
      by_cases reached : steps ≤ executed
      · rw [if_pos reached, if_pos reached]
      · rw [if_neg reached] at ended
        rw [if_neg reached, if_neg reached]
        dsimp only at ended ⊢
        cases fault : e.runFrame.1.fault with
        | none =>
            rw [fault] at ended
            exact ih ended le
        | some g =>
            rw [fault] at ended
            cases onFault with
            | halt => rfl
            | skip => exact ih ended le

theorem headlessOn_reaches
    (finished : (headlessOn steps onFault executed skipped e frames).ending = .finished) :
    steps ≤ (headlessOn steps onFault executed skipped e frames).executed := by
  fun_induction headlessOn steps onFault executed skipped e frames
  case case1 reached => exact reached
  case case2 | case4 => cases finished
  case case3 ih => exact ih finished
  case case5 skips failed ih =>
    subst skips
    exact ih finished

/-- The steps are exceeded by less than the largest frame. -/
theorem Steady.headlessOn_le (s : Steady f e)
    (start : (executed : Int) ≤ steps - 1 + (f ⌈/⌉ frameRate : Nat)) :
    ((headlessOn steps onFault executed skipped e frames).executed : Int) ≤
      steps - 1 + (f ⌈/⌉ frameRate : Nat) := by
  fun_induction headlessOn steps onFault executed skipped e frames
  case case1 | case2 => exact start
  case case3 executed skipped e short frames event e' ran executed' well ih =>
    obtain ⟨rfl, rfl⟩ := Prod.ext_iff.mp ran
    have most := s.counted_le
    rw [counted_of_none well] at most
    exact ih s.runFrame (by omega)
  case case4 executed skipped e short frames event e' ran executed' g halts failed =>
    obtain ⟨rfl, rfl⟩ := Prod.ext_iff.mp ran
    have most := s.counted_le
    rw [counted_of_some failed] at most
    show ((executed + e.runFrame.1.cycles : Nat) : Int) ≤ _
    omega
  case case5 executed skipped e short frames event e' ran executed' g skips failed ih =>
    obtain ⟨rfl, rfl⟩ := Prod.ext_iff.mp ran
    have most := s.counted_le
    rw [counted_of_some failed] at most
    subst skips
    exact ih s.runFrame.skip (by omega)

/-! ## The first failure -/

/-- All instructions that the next frame attempts succeed: those that it owes, unless the debugger
stops it. -/
structure FrameSucceeds (e : Emulator) : Prop where
  fault : e.runFrame.1.fault = none
  succeeded : ∀ k < e.runFrame.1.cycles, (e.afterSteps k).step.1.reason ≠ .fault
  stopped : e.runFrame.1.cycles < e.owed →
    e.runFrame.1.reason = .interrupt ∨ e.runFrame.1.reason = .breakpoint ∨
      e.runFrame.1.reason = .condition

/-- An instruction fails that the next frame attempts, and the program counter stays on it. -/
structure FrameHalts (e : Emulator) (g : Fault) : Prop where
  fault : e.runFrame.1.fault = some g
  succeeded : ∀ k < e.runFrame.1.cycles, (e.afterSteps k).step.1.reason ≠ .fault
  failed : (e.afterSteps e.runFrame.1.cycles).step.1 = faultEvent g
  address : g.address = some (e.runFrame.2.machine.pc.toNat : Int)
  still : e.runFrame.2.step.1 = faultEvent g

theorem frameSucceeds_of_none (h : e.runFrame.1.fault = none) : e.FrameSucceeds :=
  ⟨h, (runFrame_went e).succeeded, (runFrame_went e).stopped h⟩

theorem frameHalts_of_some {g : Fault} (h : e.runFrame.1.fault = some g) : e.FrameHalts g := by
  obtain ⟨-, here, still⟩ := (runFrame_went e).failed g h
  have failed : e.runFrame.2.step.1.reason = .fault := by
    rw [still]
    rfl
  have address := (failed_step_atomic e.runFrame.2 failed).1.2.1
  rw [still] at address
  exact ⟨h, (runFrame_went e).succeeded, here, address, still⟩

/-- How a headless run ends that the first failure halts, behind so many frames of `e` in which
everything succeeded. -/
inductive HaltEnd (e : Emulator) (n : Nat) : HeadlessRun → Prop
  | finished : HaltEnd e n ⟨.finished, e.executedIn n, [], e.afterFrames n⟩
  | halted {g : Fault} (fails : (e.afterFrames n).FrameHalts g) :
    HaltEnd e n ⟨.halted g, e.executedIn (n + 1), [], e.afterFrames (n + 1)⟩

theorem headlessOn_halt {n : Nat} (before : ∀ j < n, (e.afterFrames j).FrameSucceeds)
    (ended : (headlessOn steps .halt (e.executedIn n) [] (e.afterFrames n) frames).ending ≠
      .stuck) :
    ∃ n', (∀ j < n', (e.afterFrames j).FrameSucceeds) ∧
      HaltEnd e n' (headlessOn steps .halt (e.executedIn n) [] (e.afterFrames n) frames) := by
  induction frames generalizing n with
  | zero =>
      by_cases reached : steps ≤ e.executedIn n
      · rw [headlessOn, if_pos reached]
        exact ⟨n, before, .finished⟩
      · rw [headlessOn, if_neg reached] at ended
        exact absurd rfl ended
  | succ frames ih =>
      rw [headlessOn] at ended ⊢
      by_cases reached : steps ≤ e.executedIn n
      · rw [if_pos reached]
        exact ⟨n, before, .finished⟩
      · rw [if_neg reached] at ended ⊢
        dsimp only at ended ⊢
        rw [← executedIn_succ] at ended ⊢
        cases fault : (e.afterFrames n).runFrame.1.fault with
        | none =>
            rw [fault] at ended
            have here := frameSucceeds_of_none fault
            exact ih (n := n + 1) (Nat.forall_lt_succ_right.mpr ⟨before, here⟩) ended
        | some g => exact ⟨n, before, .halted (frameHalts_of_some fault)⟩

theorem headlessOn_skip :
    ∀ g, (headlessOn steps .skip executed skipped e frames).ending ≠ .halted g := by
  intro g
  fun_induction headlessOn steps .skip executed skipped e frames
  case case1 | case2 => nofun
  case case3 ih => exact ih
  case case4 halts _ => cases halts
  case case5 ih => exact ih

/-- **A headless run keeps to its budget.** Without conditions it ends within the frames that it
takes to owe an instruction, taken once for each step and once more; so many frames or more make no
difference. A run of no steps runs no frame. Any other counts its steps, and less than a frame more.
If failures are skipped it always finishes; otherwise the first instruction that fails ends it, and
the program counter stays there. -/
theorem runHeadless_budget (r : Reachable e) (unconditional : ∀ c ∈ e.debugger.conditions, c = none)
    (steps : Int) (onFault : OnFault) :
    (e.runHeadless steps onFault).ending ≠ .stuck ∧
    (∀ frames, (steps.toNat + 1) * (frameRate ⌈/⌉ e.frequency) ≤ frames →
      headlessOn steps onFault 0 [] e frames = e.runHeadless steps onFault) ∧
    (steps ≤ 0 → ∀ frames, headlessOn steps onFault 0 [] e frames = ⟨.finished, 0, [], e⟩) ∧
    (0 < steps →
      ((e.runHeadless steps onFault).executed : Int) ≤
        steps - 1 + (e.frequency ⌈/⌉ frameRate : Nat) ∧
      ((e.runHeadless steps onFault).ending = .finished →
        steps ≤ (e.runHeadless steps onFault).executed)) ∧
    (onFault = .skip → (e.runHeadless steps onFault).ending = .finished) ∧
    (onFault = .halt → ∃ n, (∀ j < n, (e.afterFrames j).FrameSucceeds) ∧
      HaltEnd e n (e.runHeadless steps onFault)) := by
  have s := r.steady unconditional
  have ends : ∀ frames, (steps.toNat + 1) * (frameRate ⌈/⌉ e.frequency) ≤ frames →
      (headlessOn steps onFault 0 [] e frames).ending ≠ .stuck := by
    intro frames enough
    have idled : e.frequency * 0 ≤ e.credit := Nat.zero_le _
    have most : toGo steps 0 e ≤ steps.toNat + 1 := by
      unfold toGo
      split <;> omega
    apply s.headlessOn_ends idled
    calc (frameRate ⌈/⌉ e.frequency) * toGo steps 0 e
        ≤ (frameRate ⌈/⌉ e.frequency) * (steps.toNat + 1) := Nat.mul_le_mul_left _ most
      _ = (steps.toNat + 1) * (frameRate ⌈/⌉ e.frequency) := Nat.mul_comm _ _
      _ ≤ frames := enough
  have given := s.le_headlessFrames steps
  have ended := ends _ given
  refine ⟨ended, ?_, ?_, ?_, ?_, ?_⟩
  · intro frames enough
    have least := ends _ (Nat.le_refl _)
    exact (headlessOn_of_le least enough).trans (headlessOn_of_le least given).symm
  · intro none frames
    unfold headlessOn
    exact if_pos none
  · intro pos
    exact ⟨s.headlessOn_le (by omega), headlessOn_reaches⟩
  · rintro rfl
    cases ending : (e.runHeadless steps .skip).ending with
    | finished => rfl
    | halted g => exact absurd ending (headlessOn_skip g)
    | stuck => exact absurd ending ended
  · rintro rfl
    exact headlessOn_halt (n := 0) (fun j less => absurd less (Nat.not_lt_zero j)) ended

/-- A break request, a breakpoint where the program starts, and one instruction before words that
cannot be executed. -/
def breakPending (frequency : Nat) : Emulator :=
  ((loaded .wrap frequency [0x60, 0x05]).after (.debug (.addBreakpoint 0x200))).after
    (.debug .requestBreak)

theorem reachable_breakPending {frequency : Nat} (pos : 0 < frequency) :
    Reachable (breakPending frequency) :=
  ((reachable_loaded pos (by decide)).after (.debug (.addBreakpoint 0x200))).after
    (.debug .requestBreak)

/-- At seven instructions a second no frame less would do, at a hundred and twenty the count is the
largest there can be, and both times the request has cost frames that counted nothing. -/
theorem breakPending_budget :
    (headlessOn 1 .skip 0 [] (breakPending 7) 17).ending = .stuck ∧
      headlessOn 1 .skip 0 [] (breakPending 7) 18 = (breakPending 7).runHeadless 1 .skip ∧
      ((breakPending 120).runHeadless 1 .skip).executed = 2 ∧
      (((breakPending 120).runHeadless 1 .skip).executed : Int) ≤ 1 - 1 + (2 : Nat) ∧
      ((breakPending 120).runHeadless 1 .halt).emulator.machine.pc = 0x202 ∧
      ∃ n, HaltEnd (breakPending 120) n ((breakPending 120).runHeadless 1 .halt) := by
  have unconditional (frequency : Nat) :
      ∀ c ∈ (breakPending frequency).debugger.conditions, c = none := nofun
  have slow : Reachable (breakPending 7) := reachable_breakPending (by decide)
  have fast : Reachable (breakPending 120) := reachable_breakPending (by decide)
  obtain ⟨-, enough, -⟩ := runHeadless_budget slow (unconditional 7) 1 .skip
  obtain ⟨-, -, -, counted, -⟩ := runHeadless_budget fast (unconditional 120) 1 .skip
  obtain ⟨n, -, ends⟩ :=
    (runHeadless_budget fast (unconditional 120) 1 .halt).2.2.2.2.2 rfl
  exact ⟨by decide +kernel, enough 18 (by decide +kernel), by decide +kernel,
    (counted (by decide)).1, by decide +kernel, n, ends⟩

end Emulator

end Chip8
