import Chip8.Proofs.Emulator.Accounting
import Chip8.Proofs.Emulator.Breakpoints
import Chip8.Proofs.Emulator.Iteration

/-!
# Runs that start on a breakpoint

A run goes on from a breakpoint that it starts on, but only after the debugger has reported it. This
shows in two ways.

The debugger reports the first thing it finds, so it has not looked at the conditions. One that
holds there is passed together with the breakpoint. Therefore a run with one more breakpoint can be
longer than without it, and `breakpoint_prolongs_iff` says when: only if the breakpoint hides a
condition. Everywhere else in a run breakpoints are one more reason to end.

And the debugger has taken the breakpoint down as its last event, although it stopped nothing. A
later stop takes its place; if there is none, it stays (`stops_remembered_iff`).
-/

namespace Chip8

open Chip8.Debug Chip8.Text

/-- The debugger or a fault has stopped the call; otherwise it has come to its own end. -/
def Debug.Reason.isStop : Reason → Bool
  | breakpoint | condition | interrupt | fault => true
  | step | keyWait | maxSteps => false

namespace Emulator

variable {e : Emulator} {a limit : Int} {k : Nat}

/-! ## The length of a run -/

/-- The instructions that a run executes. -/
def runLength (e : Emulator) (limit : Int) : Nat := (e.run limit).2.totalSteps - e.totalSteps

theorem runLength_eq_cycles (e : Emulator) (limit : Int) :
    e.runLength limit = (e.run limit).1.cycles := by
  rw [runLength, (run_accounted e limit).steps, Nat.add_sub_cancel_left]

/-- A run ends where there is a first reason to end. -/
theorem run_endsFrom (e : Emulator) (limit : Int) : e.EndsFrom limit 0 (e.run limit) := by
  have start : Noted (e.afterSteps 0) e := ⟨_, rfl⟩
  exact runOn_endsFrom start rfl (Nat.zero_add _).symm

theorem endsAt_runLength (e : Emulator) (limit : Int) :
    e.endsAt limit (e.runLength limit) = some (e.run limit).1.reason := by
  obtain ⟨m, why, -, ends, -, outcome⟩ := run_endsFrom e limit
  rw [runLength_eq_cycles, outcome.cycles, outcome.reason]
  exact ends

/-- Where there is a reason to end, the run gets no further. -/
theorem runLength_le (h : e.endsAt limit k ≠ none) : e.runLength limit ≤ k := by
  obtain ⟨m, why, -, -, before, outcome⟩ := run_endsFrom e limit
  rw [runLength_eq_cycles, outcome.cycles]
  by_contra further
  exact h (before k (Nat.zero_le k) (Nat.lt_of_not_le further))

theorem runLength_eq_zero_iff : e.runLength limit = 0 ↔ e.endsAt limit 0 ≠ none := by
  constructor
  · intro nothing
    rw [← nothing, endsAt_runLength]
    exact Option.some_ne_none _
  · intro ends
    exact Nat.le_zero.mp (runLength_le ends)

/-! ## Reasons to end -/

theorem stopReason_ne_none_iff (e : Emulator) (k : Nat) :
    e.stopReason k ≠ none ↔
      e.debugger.breakRequested = true ∨ (0 < k ∧ e.machine.pc ∈ e.debugger.breakpoints) ∨
        e.debugger.Met e.machine ∧ ¬ (k = 0 ∧ e.machine.pc ∈ e.debugger.breakpoints) := by
  unfold stopReason
  split
  · simp_all
  · split
    · simp_all
    · split
      · simp_all
      · simp_all

theorem endsAt_ne_none_iff (e : Emulator) (limit : Int) (k : Nat) :
    e.endsAt limit k ≠ none ↔
      e.waitsAfter k = true ∨ max limit 0 ≤ k ∨ (e.afterSteps k).stopReason k ≠ none ∨
        (e.afterSteps k).step.1.reason = .fault := by
  unfold endsAt
  split
  · simp_all
  · split
    · simp_all
    · cases (e.afterSteps k).stopReason k with
      | some reason => simp_all
      | none => simp_all

/-- Nothing was executed yet, so no instruction has waited for a key. -/
theorem endsAt_zero (e : Emulator) (limit : Int) :
    e.endsAt limit 0 =
      if limit ≤ 0 then some .maxSteps
      else (e.stopReason 0).or (if e.step.1.reason = .fault then some .fault else none) := by
  by_cases spent : limit ≤ 0
  · rw [if_pos spent, endsAt, waitsAfter, if_neg Bool.false_ne_true, if_pos (by omega)]
  · rw [if_neg spent]
    exact endsAt_of_not_waits rfl (by omega)

theorem endsAt_zero_ne_none_iff (e : Emulator) (limit : Int) :
    e.endsAt limit 0 ≠ none ↔
      limit ≤ 0 ∨ e.stopReason 0 ≠ none ∨ e.step.1.reason = .fault := by
  rw [endsAt_ne_none_iff]
  simp [waitsAfter, afterSteps]

/-! ## One more breakpoint -/

def withBreakpoint (e : Emulator) (a : Int) : Emulator :=
  { e with debugger := e.debugger.addBreakpoint a }

theorem mem_withBreakpoint (e : Emulator) (a : Int) (pc : UInt16) :
    pc ∈ (e.withBreakpoint a).debugger.breakpoints ↔
      pc = wordOf a ∨ pc ∈ e.debugger.breakpoints :=
  Debugger.mem_insertAddress _ _ _

/-- Steps do not look at breakpoints. -/
theorem step_withBreakpoint (e : Emulator) (a : Int) :
    (e.withBreakpoint a).step = (e.step.1, e.step.2.withBreakpoint a) := by
  have traced : (e.withBreakpoint a).traceFetch.trace = e.traceFetch.trace := by
    rw [traceFetch_trace, traceFetch_trace]
    rfl
  rcases h : e.machine.step with ⟨m, f | i⟩
  · rw [step_of_error h, step_of_error (e := e.withBreakpoint a) h, traced]
    rfl
  · rw [step_of_ok h, step_of_ok (e := e.withBreakpoint a) h, traced]
    rfl

theorem afterSteps_withBreakpoint (e : Emulator) (a : Int) (k : Nat) :
    (e.withBreakpoint a).afterSteps k = (e.afterSteps k).withBreakpoint a := by
  induction k with
  | zero => rfl
  | succ k ih => rw [afterSteps_succ, ih, step_withBreakpoint, afterSteps_succ]

theorem waitsAfter_withBreakpoint (e : Emulator) (a : Int) (k : Nat) :
    (e.withBreakpoint a).waitsAfter k = e.waitsAfter k := by
  cases k with
  | zero => rfl
  | succ k => rw [waitsAfter, waitsAfter, afterSteps_withBreakpoint, step_withBreakpoint]

/-- With a breakpoint where the run starts, a condition that holds there is not looked at. There
was none before, no request comes first, and the instruction can be executed. -/
structure HidesCondition (e : Emulator) (a : Int) : Prop where
  noRequest : e.debugger.breakRequested = false
  here : e.machine.pc = wordOf a
  new : e.machine.pc ∉ e.debugger.breakpoints
  met : e.debugger.Met e.machine
  executes : e.step.1.reason ≠ .fault

theorem stopReason_zero_ne_none_iff (e : Emulator) :
    e.stopReason 0 ≠ none ↔
      e.debugger.breakRequested = true ∨
        e.debugger.Met e.machine ∧ e.machine.pc ∉ e.debugger.breakpoints := by
  rw [stopReason_ne_none_iff]
  simp

/-- A run that has executed something is stopped wherever it was stopped before. -/
theorem stopReason_withBreakpoint_pos (pos : 0 < k) (stops : e.stopReason k ≠ none) :
    (e.withBreakpoint a).stopReason k ≠ none := by
  rw [stopReason_ne_none_iff] at stops ⊢
  rcases stops with requested | ⟨-, here⟩ | ⟨met, -⟩
  · exact Or.inl requested
  · exact Or.inr (Or.inl ⟨pos, (mem_withBreakpoint e a _).mpr (Or.inr here)⟩)
  · refine Or.inr (Or.inr ⟨met, ?_⟩)
    rintro ⟨rfl, -⟩
    exact absurd pos (Nat.lt_irrefl 0)

theorem endsAt_withBreakpoint_pos (pos : 0 < k) (ends : e.endsAt limit k ≠ none) :
    (e.withBreakpoint a).endsAt limit k ≠ none := by
  rw [endsAt_ne_none_iff] at ends ⊢
  rw [waitsAfter_withBreakpoint, afterSteps_withBreakpoint, step_withBreakpoint]
  rcases ends with waits | spent | stops | fails
  · exact Or.inl waits
  · exact Or.inr (Or.inl spent)
  · exact Or.inr (Or.inr (Or.inl (stopReason_withBreakpoint_pos pos stops)))
  · exact Or.inr (Or.inr (Or.inr fails))

/-- Where a run starts, a breakpoint more is a reason less if it hides a condition. -/
theorem endsAt_withBreakpoint_zero (ends : e.endsAt limit 0 ≠ none) :
    (e.withBreakpoint a).endsAt limit 0 ≠ none ↔ ¬ (0 < limit ∧ e.HidesCondition a) := by
  rw [endsAt_zero_ne_none_iff, stopReason_zero_ne_none_iff, step_withBreakpoint,
    mem_withBreakpoint]
  constructor
  · rintro (spent | (requested | ⟨-, elsewhere⟩) | fails) ⟨budget, hides⟩
    · omega
    · exact Bool.noConfusion (hides.noRequest.symm.trans requested)
    · exact elsewhere (Or.inl hides.here)
    · exact hides.executes fails
  · intro shows
    rw [endsAt_zero_ne_none_iff, stopReason_zero_ne_none_iff] at ends
    rcases ends with spent | (requested | ⟨met, new⟩) | fails
    · exact Or.inl spent
    · exact Or.inr (Or.inl (Or.inl requested))
    · -- what else there is to end for at the start has to keep the condition from being hidden
      by_contra goes
      obtain ⟨budget, going, executes⟩ := not_or.mp goes |>.imp_right not_or.mp
      obtain ⟨noRequest, hidden⟩ := not_or.mp going
      refine shows ⟨Int.not_le.mp budget, eq_false_of_ne_true noRequest, ?_, new, met, executes⟩
      by_contra elsewhere
      exact hidden ⟨met, not_or.mpr ⟨elsewhere, new⟩⟩
    · exact Or.inr (Or.inr fails)

/-- A run is not longer with one more breakpoint, unless this hides a condition. -/
theorem runLength_withBreakpoint_le_iff (e : Emulator) (a limit : Int) :
    (e.withBreakpoint a).runLength limit ≤ e.runLength limit ↔
      ¬ (0 < limit ∧ e.HidesCondition a) := by
  have ends : e.endsAt limit (e.runLength limit) ≠ none := by
    rw [endsAt_runLength]
    exact Option.some_ne_none _
  constructor
  · rintro shorter ⟨budget, hides⟩
    have here : e.endsAt limit 0 ≠ none := by
      rw [endsAt_zero_ne_none_iff, stopReason_zero_ne_none_iff]
      exact Or.inr (Or.inl (Or.inr ⟨hides.met, hides.new⟩))
    rw [runLength_eq_zero_iff.mpr here] at shorter
    have stopped := runLength_eq_zero_iff.mp (Nat.le_zero.mp shorter)
    exact (endsAt_withBreakpoint_zero here).mp stopped ⟨budget, hides⟩
  · intro shows
    apply runLength_le
    rcases Nat.eq_zero_or_pos (e.runLength limit) with start | pos
    · rw [start] at ends ⊢
      exact (endsAt_withBreakpoint_zero ends).mpr shows
    · exact endsAt_withBreakpoint_pos pos ends

/-! ## Conditions that hold at the start -/

/-- The debugger stops the run before its first instruction. -/
structure StoppedAtOnce (e : Emulator) (limit : Int) : Prop where
  length : e.runLength limit = 0
  reason : (e.run limit).1.reason = .interrupt ∨ (e.run limit).1.reason = .condition

/-- Nothing but a request or a condition stops a run at its start. -/
theorem stopReason_zero_cases {why : Reason} (h : e.stopReason 0 = some why) :
    why = .interrupt ∨ why = .condition := by
  unfold stopReason at h
  split at h
  · exact Or.inl (Option.some.inj h).symm
  · rw [if_neg (fun behind => absurd behind.1 (Nat.lt_irrefl 0))] at h
    split at h
    · exact Or.inr (Option.some.inj h).symm
    · cases h

theorem stoppedAtOnce_iff (e : Emulator) (limit : Int) :
    e.StoppedAtOnce limit ↔
      0 < limit ∧ (e.debugger.breakRequested = true ∨
        e.debugger.Met e.machine ∧ e.machine.pc ∉ e.debugger.breakpoints) := by
  rw [← stopReason_zero_ne_none_iff]
  have ends := endsAt_runLength e limit
  constructor
  · rintro ⟨nothing, reason⟩
    rw [nothing, endsAt_zero] at ends
    by_cases budget : limit ≤ 0
    · rw [if_pos budget] at ends
      rw [← Option.some.inj ends] at reason
      simp at reason
    · refine ⟨Int.not_le.mp budget, ?_⟩
      intro free
      rw [if_neg budget, free, Option.none_or] at ends
      split at ends
      · rw [← Option.some.inj ends] at reason
        simp at reason
      · cases ends
  · rintro ⟨budget, stops⟩
    obtain ⟨why, stop⟩ := Option.ne_none_iff_exists'.mp stops
    have nothing : e.runLength limit = 0 := by
      rw [runLength_eq_zero_iff, endsAt_zero_ne_none_iff]
      exact Or.inr (Or.inl stops)
    rw [nothing, endsAt_zero, if_neg (Int.not_le.mpr budget), stop, Option.some_or] at ends
    refine ⟨nothing, ?_⟩
    rw [← Option.some.inj ends]
    exact stopReason_zero_cases stop

/-- **One more breakpoint.** A run is not longer with one more breakpoint, exactly unless the
breakpoint hides a condition where the run starts. For a condition that holds there stops the run
before its first instruction only if there is no breakpoint. -/
theorem breakpoint_prolongs_iff (e : Emulator) (limit : Int) :
    (∀ a, (e.withBreakpoint a).runLength limit ≤ e.runLength limit ↔
      ¬ (0 < limit ∧ e.HidesCondition a)) ∧
    (e.StoppedAtOnce limit ↔
      0 < limit ∧ (e.debugger.breakRequested = true ∨
        e.debugger.Met e.machine ∧ e.machine.pc ∉ e.debugger.breakpoints)) :=
  ⟨fun a => runLength_withBreakpoint_le_iff e a limit, stoppedAtOnce_iff e limit⟩

/-- A loop that sets the index, and a condition that holds only before its first instruction. -/
def metAtStart : Emulator :=
  (loaded .wrap 700 [0xA0, 0x01, 0x12, 0x00]).after
    (.debug (.addCondition ⟨.index, .eq, 0, "i == 0"⟩))

/-- With a breakpoint at the start the run is not stopped there any more. -/
theorem metAtStart_prolonged :
    ¬ (metAtStart.withBreakpoint 0x200).runLength 3 ≤ metAtStart.runLength 3 := by
  decide +kernel

/-! ## What is remembered of a run -/

/-- The event for the breakpoint at the program counter. -/
def breakpointEvent (e : Emulator) : Event :=
  Debugger.stopEvent .breakpoint e.machine s!"Breakpoint at ${hexWord e.machine.pc}"

/-- A run with so many instructions to go starts on a breakpoint, and nothing comes first. -/
structure StartsOnBreakpoint (e : Emulator) (left : Nat) : Prop where
  pos : 0 < left
  noRequest : e.debugger.breakRequested = false
  here : e.machine.pc ∈ e.debugger.breakpoints

/-- What is remembered when nothing was stopped: the breakpoint that was passed, if there was
one. -/
structure Noticed (e : Emulator) (passes : Prop) (last : Option Event) : Prop where
  passed : passes → last = some e.breakpointEvent
  other : ¬ passes → last = e.debugger.lastEvent

/-- What is remembered behind a call. -/
structure Remembered (e : Emulator) (passes : Prop) (o : Event × Emulator) : Prop where
  stopped : o.1.reason.isStop = true → o.2.debugger.lastEvent = some o.1
  ended : o.1.reason.isStop = false → Noticed e passes o.2.debugger.lastEvent

/-- A look that does not stop the run is remembered only if it has found a breakpoint. -/
theorem noticed_checked {executed left : Nat} (h : e.stopBefore executed = none) :
    Noticed e (executed = 0 ∧ e.StartsOnBreakpoint (left + 1)) e.checked.debugger.lastEvent := by
  have looked : e.checked.debugger.lastEvent =
      (e.debugger.check e.machine).1.or e.debugger.lastEvent := by
    rw [checked, Debugger.check_records]
  constructor
  · rintro ⟨-, -, noRequest, here⟩
    rw [looked, Debugger.check_of_mem noRequest here]
    rfl
  · intro elsewhere
    rw [looked]
    cases found : (e.debugger.check e.machine).1 with
    | none => rfl
    | some event =>
        exfalso
        apply elsewhere
        obtain ⟨start, reason⟩ : executed = 0 ∧ event.reason = .breakpoint := by
          simpa [stopBefore, found, stops] using h
        obtain ⟨noRequest, here⟩ := Debugger.check_breakpoint found reason
        exact ⟨start, Nat.succ_pos left, noRequest, here⟩

theorem Remembered.of_stop {passes : Prop} {o : Event × Emulator}
    (stop : o.1.reason.isStop = true) (last : o.2.debugger.lastEvent = some o.1) :
    Remembered e passes o := by
  refine ⟨fun _ => last, fun going => ?_⟩
  rw [stop] at going
  cases going

theorem Remembered.of_end {passes : Prop} {o : Event × Emulator}
    (going : o.1.reason.isStop = false) (last : Noticed e passes o.2.debugger.lastEvent) :
    Remembered e passes o := by
  refine ⟨fun stop => ?_, fun _ => last⟩
  rw [going] at stop
  cases stop

theorem isStop_of_stopBefore {executed : Nat} {event : Event}
    (h : e.stopBefore executed = some event) : event.reason.isStop = true := by
  rcases stopBefore_reason h with reason | reason | reason <;> rw [reason] <;> rfl

/-- **What a run is remembered by**, by induction on the instructions it has to go. Only its first
look can find a breakpoint without stopping. -/
theorem remembered_runOn (e : Emulator) (limit : Int) (stopOnKeyWait : Bool)
    (executed left : Nat) :
    Remembered e (executed = 0 ∧ e.StartsOnBreakpoint left)
      (e.runOn limit stopOnKeyWait executed left) := by
  induction left generalizing e executed with
  | zero =>
      apply Remembered.of_end rfl
      refine ⟨?_, fun _ => rfl⟩
      rintro ⟨-, budget, -⟩
      exact absurd budget (Nat.lt_irrefl 0)
  | succ left ih =>
      rw [runOn_succ]
      cases stop : e.stopBefore executed with
      | some event =>
          have halted : event.reason.isStop = true := isStop_of_stopBefore stop
          exact Remembered.of_stop halted rfl
      | none =>
          have noticed : Noticed e (executed = 0 ∧ e.StartsOnBreakpoint (left + 1))
              e.checked.debugger.lastEvent := noticed_checked stop
          dsimp only
          by_cases failed : e.checked.step.1.reason = .fault
          · rw [if_pos failed]
            exact Remembered.of_stop (congrArg Reason.isStop failed) rfl
          · rw [if_neg failed]
            have kept : e.checked.step.2.debugger = e.checked.debugger :=
              (step_of_reason_ne_fault failed).2.1
            rw [← kept] at noticed
            by_cases waits : e.checked.step.1.reason = .keyWait ∧ stopOnKeyWait
            · rw [if_pos waits]
              exact Remembered.of_end (congrArg Reason.isStop waits.1) noticed
            · rw [if_neg waits]
              obtain ⟨stopped, ended⟩ := ih e.checked.step.2 (executed + 1)
              refine ⟨stopped, fun going => ?_⟩
              rw [(ended going).other (fun start => Nat.succ_ne_zero _ start.1)]
              exact noticed

theorem remembered_run (e : Emulator) (limit : Int) :
    Remembered e (e.StartsOnBreakpoint limit.toNat) (e.run limit) := by
  have ran := remembered_runOn e limit true 0 limit.toNat
  rw [eq_self, true_and] at ran
  exact ran

/-- The tick of a frame is not for the debugger. -/
theorem remembered_runFrame (e : Emulator) :
    Remembered e (e.StartsOnBreakpoint e.owed) e.runFrame := by
  have ran : Remembered e (e.StartsOnBreakpoint e.owed) e.frameRun := by
    obtain ⟨stopped, ended⟩ := remembered_runOn e.frameStart e.owed false 0 e.owed
    refine ⟨stopped, fun going => ?_⟩
    obtain ⟨passed, other⟩ := ended going
    refine ⟨fun starts => passed ⟨rfl, starts.pos, starts.noRequest, starts.here⟩, ?_⟩
    intro elsewhere
    apply other
    rintro ⟨-, pos, noRequest, here⟩
    exact elsewhere ⟨pos, noRequest, here⟩
  rw [runFrame_eq]
  by_cases ended : e.frameRun.1.reason = .maxSteps
  · rw [if_neg (not_not_intro ended)]
    exact Remembered.of_end rfl (ran.ended (congrArg Reason.isStop ended))
  · rw [if_pos ended]
    exact ran

/-! ## When stops are remembered -/

/-- The last event is the stop that the call has ended with, or else it is as it was. A breakpoint
that is remembered has stopped this call, or was remembered before. -/
structure RemembersStops (e : Emulator) (o : Event × Emulator) : Prop where
  stopped : o.1.reason.isStop = true → o.2.debugger.lastEvent = some o.1
  ended : o.1.reason.isStop = false → o.2.debugger.lastEvent = e.debugger.lastEvent
  breaks : ∀ event, o.2.debugger.lastEvent = some event → event.reason = .breakpoint →
    event = o.1 ∨ e.debugger.lastEvent = some event

/-- A call passes a breakpoint and is not stopped later, and something else was remembered before. -/
structure Misremembers (e : Emulator) (passes : Prop) (event : Event) : Prop where
  passes : passes
  ended : event.reason.isStop = false
  new : e.debugger.lastEvent ≠ some e.breakpointEvent

theorem Remembered.remembersStops_iff {passes : Prop} {o : Event × Emulator}
    (r : Remembered e passes o) : RemembersStops e o ↔ ¬ e.Misremembers passes o.1 := by
  constructor
  · rintro stops ⟨passes, ended, new⟩
    have same := stops.ended ended
    rw [(r.ended ended).passed passes] at same
    exact new same.symm
  · intro right
    have ended (going : o.1.reason.isStop = false) :
        o.2.debugger.lastEvent = e.debugger.lastEvent := by
      by_cases starts : passes
      · rw [(r.ended going).passed starts]
        by_contra new
        exact right ⟨starts, going, fun same => new same.symm⟩
      · exact (r.ended going).other starts
    refine ⟨r.stopped, ended, ?_⟩
    intro event last _
    cases stop : o.1.reason.isStop with
    | true =>
        rw [r.stopped stop] at last
        exact Or.inl (Option.some.inj last).symm
    | false =>
        rw [ended stop] at last
        exact Or.inr last

/-- **The last event.** Behind a run or a frame the debugger remembers its stop. If there was none,
it remembers the breakpoint that was passed at the start, or else what it remembered before. So it
remembers stops and nothing else, exactly unless a breakpoint was passed by a call that was not
stopped later. -/
theorem stops_remembered_iff (e : Emulator) :
    (∀ limit, Remembered e (e.StartsOnBreakpoint limit.toNat) (e.run limit) ∧
      (RemembersStops e (e.run limit) ↔
        ¬ e.Misremembers (e.StartsOnBreakpoint limit.toNat) (e.run limit).1)) ∧
    Remembered e (e.StartsOnBreakpoint e.owed) e.runFrame ∧
      (RemembersStops e e.runFrame ↔
        ¬ e.Misremembers (e.StartsOnBreakpoint e.owed) e.runFrame.1) := by
  have frame := remembered_runFrame e
  refine ⟨fun limit => ?_, frame, frame.remembersStops_iff⟩
  have run := remembered_run e limit
  exact ⟨run, run.remembersStops_iff⟩

/-- A program with a breakpoint where it starts. -/
def breakpointAtStart : Emulator :=
  (loaded .wrap 700 [0x70, 0x01, 0x12, 0x00]).withBreakpoint 0x200

/-- A run of one instruction passes the breakpoint, and is remembered as if it had stopped there. -/
theorem breakpointAtStart_misremembered :
    ¬ RemembersStops breakpointAtStart (breakpointAtStart.run 1) := by
  intro stops
  have same := stops.ended (by decide +kernel)
  revert same
  decide +kernel

end Emulator

end Chip8
