import Chip8.Proofs.Debug.Check
import Chip8.Proofs.Emulator.Loop
import Chip8.Proofs.Machine.Waiting

/-!
# Runs as iterated steps

A run goes through the states that single steps go through. Whether it ends in one of them is told
by that state and by the number of steps that led there (`endsAt`). All that a run adds is what
the debugger takes down: its last event, and that a request was answered. Neither shows in the
steps behind.
-/

namespace Chip8

open Chip8.Debug Chip8.Text

namespace Emulator

variable {s e : Emulator} {k : Nat}

/-! ## Where a run ends -/

/-- The step that led to the state behind `k` steps waited for a key. -/
def waitsAfter (e : Emulator) : Nat → Bool
  | 0 => false
  | k + 1 => (e.afterSteps k).step.1.reason == .keyWait

/-- What the debugger stops a run for that has executed `k` instructions. -/
def stopReason (e : Emulator) (k : Nat) : Option Reason :=
  if e.debugger.breakRequested then some .interrupt
  else if 0 < k ∧ e.machine.pc ∈ e.debugger.breakpoints then some .breakpoint
  else if e.debugger.Met e.machine ∧ ¬ (k = 0 ∧ e.machine.pc ∈ e.debugger.breakpoints) then
    some .condition
  else none

/-- Why a run of at most `limit` instructions ends behind `k` of them, if it does. The first of
several reasons counts. -/
def endsAt (e : Emulator) (limit : Int) (k : Nat) : Option Reason :=
  if e.waitsAfter k then some .keyWait
  else if max limit 0 ≤ k then some .maxSteps
  else ((e.afterSteps k).stopReason k).or
    (if (e.afterSteps k).step.1.reason = .fault then some .fault else none)

/-- The state that a run leaves behind which ends at `s`. An instruction that fails there is
traced all the same, and may end a wait for a key. -/
def LeftAt (s : Emulator) (reason : Reason) (e : Emulator) : Prop :=
  ∃ waiting trace requested last,
    e = { s with
      machine := { s.machine with waitingForKey := waiting }
      debugger := { s.debugger with breakRequested := requested, lastEvent := last }
      trace := trace } ∧
    (reason ≠ .fault → waiting = s.machine.waitingForKey ∧ trace = s.trace) ∧
    (reason = .fault → trace = s.traceFetch.trace) ∧
    (reason = .interrupt → requested = false)

/-- The outcome of a run that has come to `s` with `k` instructions. -/
structure EndsWith (s : Emulator) (k : Nat) (why : Reason) (o : Event × Emulator) : Prop where
  reason : o.1.reason = why
  cycles : o.1.cycles = k
  address : o.1.address = some (s.machine.pc.toNat : Int)
  state : LeftAt s why o.2

theorem afterSteps_succ (e : Emulator) (k : Nat) :
    e.afterSteps (k + 1) = (e.afterSteps k).step.2 := by
  induction k generalizing e with
  | zero => rfl
  | succ k ih => exact ih e.step.2

/-! ## What the debugger takes down -/

/-- Two emulators that agree in everything but the last event. -/
def Noted (s e : Emulator) : Prop :=
  ∃ last, e = { s with debugger := { s.debugger with lastEvent := last } }

theorem stopBefore_map_reason (e : Emulator) (k : Nat) :
    (e.stopBefore k).map Event.reason = e.stopReason k := by
  unfold stopBefore stopReason Debugger.check
  by_cases requested : e.debugger.breakRequested
  · rw [if_pos requested, if_pos requested]
    cases k <;> rfl
  · rw [if_neg requested, if_neg requested]
    by_cases here : e.machine.pc ∈ e.debugger.breakpoints
    · rw [if_pos (List.contains_iff_mem.mpr here)]
      cases k with
      | zero => simp [here, stops, Debugger.stopEvent]
      | succ k => simp [here, stops, Debugger.stopEvent]
    · rw [if_neg (fun c => here (List.contains_iff_mem.mp c)), if_neg (fun c => here c.2)]
      simp only [Debugger.met_iff, here, and_false, not_false_eq_true, and_true]
      cases e.debugger.metCondition? e.machine with
      | none => rfl
      | some c => cases k <;> rfl

theorem stopBefore_eq_none_iff (e : Emulator) (k : Nat) :
    e.stopBefore k = none ↔ e.stopReason k = none := by
  rw [← stopBefore_map_reason, Option.map_eq_none_iff]

theorem stopReason_of_stopBefore {event : Event} (h : e.stopBefore k = some event) :
    e.stopReason k = some event.reason := by
  rw [← stopBefore_map_reason, h]
  rfl

theorem checked_frame (e : Emulator) :
    ∃ last, e.checked =
      { e with debugger := { e.debugger with breakRequested := false, lastEvent := last } } := by
  obtain ⟨last, looked⟩ := e.debugger.check_frame e.machine
  exact ⟨last, by rw [checked, looked]⟩

theorem Noted.stopReason (n : Noted s e) (k : Nat) : e.stopReason k = s.stopReason k := by
  obtain ⟨_, rfl⟩ := n
  rfl

theorem Noted.traceFetch (n : Noted s e) : e.traceFetch.trace = s.traceFetch.trace := by
  obtain ⟨_, rfl⟩ := n
  rw [traceFetch_trace, traceFetch_trace]

/-- As long as nothing stops the run, there is no request to be answered. -/
theorem Noted.checked (n : Noted s e) (going : s.stopReason k = none) : Noted s e.checked := by
  have quiet : s.debugger.breakRequested = false := by
    cases requested : s.debugger.breakRequested with
    | false => rfl
    | true =>
        rw [Emulator.stopReason, if_pos requested] at going
        cases going
  obtain ⟨last, looked⟩ := checked_frame e
  obtain ⟨_, rfl⟩ := n
  refine ⟨last, ?_⟩
  rw [looked]
  simp only [quiet]

theorem Noted.step (n : Noted s e) :
    e.step.1 = s.step.1 ∧ (s.step.1.reason ≠ .fault → Noted s.step.2 e.step.2) := by
  have traced := n.traceFetch
  obtain ⟨last, rfl⟩ := n
  rcases h : s.machine.step with ⟨m, f | i⟩
  · have failed := step_of_error (e := { s with debugger := { s.debugger with lastEvent := last } }) h
    rw [failed, step_of_error h]
    exact ⟨rfl, fun going => absurd rfl going⟩
  · have went := step_of_ok (e := { s with debugger := { s.debugger with lastEvent := last } }) h
    rw [went, step_of_ok h, traced]
    exact ⟨rfl, fun _ => ⟨last, rfl⟩⟩

/-- A step that waits for a key leaves the program counter where it was. -/
theorem step_keyWait (h : e.step.1.reason = .keyWait) :
    e.step.1.address = some (e.step.2.machine.pc.toNat : Int) := by
  rcases hm : e.machine.step with ⟨m, f | i⟩
  · rw [step_of_error hm] at h
    cases h
  · rw [step_of_ok hm] at h ⊢
    cases waiting : m.waitingForKey with
    | false =>
        rw [waiting] at h
        cases h
    | true =>
        have still : m.pc = e.machine.pc := by rw [Machine.step_waiting hm waiting]
        show some (e.machine.pc.toNat : Int) = some (m.pc.toNat : Int)
        rw [still]

/-! ## The loop -/

theorem Noted.leftAt (n : Noted s e) {reason : Reason} (went : reason ≠ .fault)
    (going : reason ≠ .interrupt) : LeftAt s reason e := by
  obtain ⟨last, rfl⟩ := n
  exact ⟨_, _, _, last, rfl, fun _ => ⟨rfl, rfl⟩, fun failed => absurd failed went,
    fun stopped => absurd stopped going⟩

/-- A run that may execute no more. -/
theorem endsWith_spent {limit : Int} (n : Noted s e) :
    EndsWith s k .maxSteps (e.exhausted limit k, e) := by
  have state : LeftAt s .maxSteps e := n.leftAt (by decide) (by decide)
  obtain ⟨_, rfl⟩ := n
  exact ⟨rfl, rfl, rfl, state⟩

/-- A run that is stopped before its next instruction. -/
theorem endsWith_stopped {event : Event} (n : Noted s e) (h : e.stopBefore k = some event) :
    EndsWith s k event.reason (e.checked.stopped event k) := by
  obtain ⟨reason, _, rfl, stops⟩ := Debugger.check_event (Option.eq_some_of_filter_eq_some h)
  have went : reason ≠ .fault := by
    rcases stops with rfl | rfl | rfl <;> decide
  obtain ⟨last, looked⟩ := checked_frame e
  rw [looked]
  obtain ⟨_, rfl⟩ := n
  exact ⟨rfl, rfl, rfl, _, _, false, _, rfl, fun _ => ⟨rfl, rfl⟩, fun failed => absurd failed went,
    fun _ => rfl⟩

/-- A run whose next instruction fails. -/
theorem endsWith_failed (n : Noted s e) (h : e.step.1.reason = .fault) :
    EndsWith s k .fault (e.step.2.stopped e.step.1 k) := by
  obtain ⟨m, f, hm⟩ := (step_reason_eq_fault_iff e).mp h
  obtain ⟨waiting, rfl⟩ : ∃ waiting, m = { e.machine with waitingForKey := waiting } :=
    ⟨_, Machine.step_error_unchanged hm⟩
  have address := (Machine.step_error_place hm).1
  rw [step_of_error hm, n.traceFetch]
  obtain ⟨_, rfl⟩ := n
  exact ⟨rfl, rfl, address, waiting, _, _, _, rfl, fun went => absurd rfl went, fun _ => rfl,
    fun stopped => Reason.noConfusion stopped⟩

/-- A run whose next instruction waits for a key. -/
theorem endsWith_waiting (n : Noted s e) (waits : s.step.1.reason = .keyWait) :
    EndsWith s.step.2 (k + 1) .keyWait ({ e.step.1 with cycles := k + 1 }, e.step.2) := by
  obtain ⟨event, after⟩ := n.step
  rw [event]
  refine ⟨waits, rfl, step_keyWait waits, ?_⟩
  apply Noted.leftAt
  · apply after
    rw [waits]
    decide
  · decide
  · decide

theorem endsAt_of_not_waits {limit : Int} (h : e.waitsAfter k = false) (less : k < limit.toNat) :
    e.endsAt limit k = ((e.afterSteps k).stopReason k).or
      (if (e.afterSteps k).step.1.reason = .fault then some .fault else none) := by
  rw [endsAt, h, if_neg Bool.false_ne_true, if_neg (by omega)]

/-- Of the states behind `k` steps and more, the first in which a run ends is the one that an
outcome goes with. -/
def EndsFrom (e : Emulator) (limit : Int) (k : Nat) (o : Event × Emulator) : Prop :=
  ∃ m reason, k ≤ m ∧ e.endsAt limit m = some reason ∧
    (∀ j, k ≤ j → j < m → e.endsAt limit j = none) ∧ EndsWith (e.afterSteps m) m reason o

section EndsFrom

variable {limit : Int} {o : Event × Emulator}

theorem endsFrom_here {reason : Reason} (ends : e.endsAt limit k = some reason)
    (outcome : EndsWith (e.afterSteps k) k reason o) : e.EndsFrom limit k o := by
  refine ⟨k, reason, Nat.le_refl k, ends, ?_, outcome⟩
  intro j low high
  omega

theorem endsFrom_later (going : e.endsAt limit k = none) (rest : e.EndsFrom limit (k + 1) o) :
    e.EndsFrom limit k o := by
  obtain ⟨m, reason, low, ends, before, outcome⟩ := rest
  refine ⟨m, reason, by omega, ends, ?_, outcome⟩
  intro j low' high
  rcases Nat.eq_or_lt_of_le low' with rfl | later
  · exact going
  · exact before j later high

end EndsFrom

/-- From wherever a run has come to, it goes on to where `endsAt` says that it ends. The induction
is on the instructions it may still execute. -/
theorem runOn_endsFrom {x : Emulator} {limit : Int} {left : Nat} (n : Noted (e.afterSteps k) x)
    (going : e.waitsAfter k = false) (budget : limit.toNat = k + left) :
    e.EndsFrom limit k (x.runOn limit true k left) := by
  induction left generalizing k x with
  | zero =>
      apply endsFrom_here
      · rw [endsAt, going, if_neg Bool.false_ne_true, if_pos (by omega)]
      · exact endsWith_spent n
  | succ left ih =>
      have here := endsAt_of_not_waits going (show k < limit.toNat by omega)
      rw [runOn_succ]
      cases stop : x.stopBefore k with
      | some event =>
          have reason := stopReason_of_stopBefore stop
          rw [n.stopReason] at reason
          rw [reason] at here
          exact endsFrom_here here (endsWith_stopped n stop)
      | none =>
          have quiet : (e.afterSteps k).stopReason k = none :=
            (n.stopReason k).symm.trans ((stopBefore_eq_none_iff x k).mp stop)
          rw [quiet] at here
          have looked := n.checked quiet
          obtain ⟨event, after⟩ := looked.step
          dsimp only
          by_cases failed : x.checked.step.1.reason = .fault
          · rw [if_pos failed]
            rw [if_pos (event ▸ failed)] at here
            exact endsFrom_here here (endsWith_failed looked failed)
          · rw [if_neg failed]
            rw [if_neg (event ▸ failed)] at here
            apply endsFrom_later here
            by_cases waits : x.checked.step.1.reason = .keyWait
            · rw [if_pos ⟨waits, rfl⟩]
              have waits' : (e.afterSteps k).step.1.reason = .keyWait := event ▸ waits
              apply endsFrom_here
              · rw [endsAt, waitsAfter, waits']
                rfl
              · rw [afterSteps_succ]
                exact endsWith_waiting looked waits'
            · rw [if_neg (fun both => waits both.1)]
              apply ih
              · rw [afterSteps_succ]
                exact after (event ▸ failed)
              · rw [waitsAfter, ← event]
                exact beq_false_of_ne waits
              · omega

end Emulator

end Chip8
