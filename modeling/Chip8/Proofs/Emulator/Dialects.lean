import Chip8.Proofs.Emulator.Calls
import Chip8.Proofs.Emulator.Lockstep
import Chip8.Proofs.Machine.Dialects

/-!
# Emulators under two dialects

Neither the debugger nor the clocks know of dialects. So two emulators that differ in the dialect
alone go on as one until an instruction is executed on which the dialects disagree: first in a step,
then in a run, where all instructions count that the run executes (`Settled`), and from there in any
calls of a host.
-/

namespace Chip8.Emulator

open Chip8.Debug

variable {d : Dialect} {e e' : Emulator}

/-- Two emulators whose machines differ in the dialect alone, and which agree in all else. -/
def SameButDialect (d : Dialect) (e e' : Emulator) : Prop :=
  ∃ m, e.machine.SameButDialect d m ∧ e' = e.withMachine m

/-- The same event, and emulators that differ in the dialect alone. -/
def SameReport (d : Dialect) (o o' : Event × Emulator) : Prop :=
  o'.1 = o.1 ∧ SameButDialect d o.2 o'.2

/-- Of the next instructions of a run none is disputed, so many of them as are given. -/
def UndisputedFor (e : Emulator) (d : Dialect) (count : Nat) : Prop :=
  ∀ k < count, ¬ (e.afterSteps k).machine.Disputed d

instance (e : Emulator) (d : Dialect) (count : Nat) : Decidable (e.UndisputedFor d count) :=
  inferInstanceAs (Decidable (∀ k < count, ¬ (e.afterSteps k).machine.Disputed d))

/-- No instruction is disputed that a call executes. -/
def Settled (e : Emulator) (d : Dialect) : Call → Prop
  | .step => ¬ e.machine.Disputed d
  | .run limit => e.UndisputedFor d (e.run limit).1.cycles
  | .runFrame => e.UndisputedFor d e.runFrame.1.cycles
  | .runFor seconds =>
    ∀ frames ∈ (framesIn seconds).toOption, ∀ n < frames.toNat, e.Completes n →
      (e.afterFrames n).UndisputedFor d (e.afterFrames n).runFrame.1.cycles
  | .tick | .skip | .press _ | .release _ | .write _ _ => True

/-- No instruction is disputed that calls execute one after the other. -/
def AllSettled : Emulator → Dialect → List Call → Prop
  | _, _, [] => True
  | e, d, c :: rest => e.Settled d c ∧ AllSettled (e.after c.action) d rest

instance (e : Emulator) (d : Dialect) (c : Call) : Decidable (e.Settled d c) :=
  match c with
  | .step => inferInstanceAs (Decidable (¬ e.machine.Disputed d))
  | .run limit => inferInstanceAs (Decidable (e.UndisputedFor d (e.run limit).1.cycles))
  | .runFrame => inferInstanceAs (Decidable (e.UndisputedFor d e.runFrame.1.cycles))
  | .runFor seconds =>
    inferInstanceAs (Decidable (∀ frames ∈ (framesIn seconds).toOption, ∀ n < frames.toNat,
      e.Completes n → (e.afterFrames n).UndisputedFor d (e.afterFrames n).runFrame.1.cycles))
  | .tick | .skip | .press _ | .release _ | .write _ _ => inferInstanceAs (Decidable True)

instance decidableAllSettled (e : Emulator) (d : Dialect) :
    (calls : List Call) → Decidable (e.AllSettled d calls)
  | [] => inferInstanceAs (Decidable True)
  | c :: rest =>
    have := decidableAllSettled (e.after c.action) d rest
    inferInstanceAs (Decidable (e.Settled d c ∧ AllSettled (e.after c.action) d rest))

/-! ## Side by side -/

theorem not_disputed_of_fault (h : e.step.1.reason = .fault) : ¬ e.machine.Disputed d := by
  obtain ⟨m, f, failed⟩ := (step_reason_eq_fault_iff e).mp h
  rintro ⟨i, executed, -⟩
  rw [failed] at executed
  cases executed

namespace SameButDialect

theorem tick (same : SameButDialect d e e') : SameButDialect d e.tick e'.tick := by
  obtain ⟨m, ⟨random, bytes, rfl⟩, rfl⟩ := same
  exact ⟨_, ⟨random, bytes, rfl⟩, rfl⟩

theorem step (same : SameButDialect d e e') (agree : ¬ e.machine.Disputed d) :
    SameReport d e.step e'.step := by
  obtain ⟨m, differs, rfl⟩ := same
  obtain ⟨answer, after⟩ := differs.step agree
  have trace : (e.withMachine m).traceFetch.trace = e.traceFetch.trace := by
    obtain ⟨random, bytes, rfl⟩ := differs
    rw [traceFetch_trace, traceFetch_trace]
    rfl
  have pc : m.pc = e.machine.pc := by
    obtain ⟨random, bytes, rfl⟩ := differs
    rfl
  rcases hm : e.machine.step with ⟨n, x⟩
  rcases hm' : (e.withMachine m).machine.step with ⟨n', x'⟩
  have hm'' : m.step = (n', x') := hm'
  rw [hm, hm''] at answer after
  cases answer
  cases x with
  | error f =>
      rw [step_of_error hm, step_of_error hm', trace]
      exact ⟨rfl, n', after, rfl⟩
  | ok i =>
      rw [step_of_ok hm, step_of_ok hm', trace]
      obtain ⟨random, bytes, rfl⟩ := after
      refine ⟨?_, _, ⟨random, bytes, rfl⟩, rfl⟩
      show stepEvent m.pc i n.waitingForKey = stepEvent e.machine.pc i n.waitingForKey
      rw [pc]

theorem lockstep (d : Dialect) :
    Lockstep (SameButDialect d) (fun m => ¬ m.Disputed d) (fun _ => False) where
  step {e _} same agree := by
    refine Or.inl (same.step ?_)
    by_cases failed : e.step.1.reason = .fault
    · exact not_disputed_of_fault failed
    · exact agree failed
  tick same := same.tick
  withDebugger _ same := by
    obtain ⟨m, differs, rfl⟩ := same
    exact ⟨m, differs, rfl⟩
  withCredit _ same := by
    obtain ⟨m, differs, rfl⟩ := same
    exact ⟨m, differs, rfl⟩
  debugger same := by
    obtain ⟨m, -, rfl⟩ := same
    rfl
  check _ same := by
    obtain ⟨m, ⟨random, bytes, rfl⟩, rfl⟩ := same
    rfl
  pc same := by
    obtain ⟨m, ⟨random, bytes, rfl⟩, rfl⟩ := same
    rfl
  credit same := by
    obtain ⟨m, -, rfl⟩ := same
    rfl
  frequency same := by
    obtain ⟨m, -, rfl⟩ := same
    rfl
  fault := False.elim
  counted _ := id

theorem run (same : SameButDialect d e e') {limit : Int}
    (agree : e.UndisputedFor d (e.run limit).1.cycles) :
    SameReport d (e.run limit) (e'.run limit) :=
  ((lockstep d).run same agree).resolve_right id

theorem runFrame (same : SameButDialect d e e')
    (agree : e.UndisputedFor d e.runFrame.1.cycles) : SameReport d e.runFrame e'.runFrame :=
  ((lockstep d).runFrame same agree).resolve_right id

theorem runFrames (same : SameButDialect d e e') {n : Nat}
    (agree : ∀ k < n, e.Completes k →
      (e.afterFrames k).UndisputedFor d (e.afterFrames k).runFrame.1.cycles) :
    SameReport d (e.runFrames n) (e'.runFrames n) :=
  ((lockstep d).runFrames same agree).resolve_right id

/-! ## Calls -/

theorem call (same : SameButDialect d e e') {c : Call} (settled : e.Settled d c) :
    e'.answer c = e.answer c ∧ SameButDialect d (e.after c.action) (e'.after c.action) := by
  cases c with
  | step => exact (same.step settled).imp_left (congrArg Answer.event)
  | run limit => exact (same.run settled).imp_left (congrArg Answer.event)
  | runFrame => exact (same.runFrame settled).imp_left (congrArg Answer.event)
  | runFor seconds =>
      rw [answer, answer, Call.action, Emulator.after, Emulator.after, runFor, runFor]
      cases count : framesIn seconds with
      | error err => exact ⟨rfl, same⟩
      | ok frames =>
          have listed : frames ∈ (framesIn seconds).toOption := by
            rw [count]
            rfl
          exact (same.runFrames (settled frames listed)).imp_left (congrArg Answer.event)
  | tick => exact ⟨rfl, same.tick⟩
  | skip =>
      obtain ⟨m, ⟨random, bytes, rfl⟩, rfl⟩ := same
      exact ⟨rfl, _, ⟨random, bytes, rfl⟩, rfl⟩
  | press key =>
      obtain ⟨m, ⟨random, bytes, rfl⟩, rfl⟩ := same
      rw [answer, answer, Call.action, Emulator.after, Emulator.after, press_eq, press_eq]
      cases key.resolve <;> exact ⟨rfl, _, ⟨random, bytes, rfl⟩, rfl⟩
  | release key =>
      obtain ⟨m, ⟨random, bytes, rfl⟩, rfl⟩ := same
      rw [answer, answer, Call.action, Emulator.after, Emulator.after, release_eq, release_eq]
      cases key.resolve <;> exact ⟨rfl, _, ⟨random, bytes, rfl⟩, rfl⟩
  | write address value =>
      obtain ⟨m, ⟨random, bytes, rfl⟩, rfl⟩ := same
      have memory : (e.withMachine (e.machine.under d random)).machine.memory = e.machine.memory :=
        rfl
      rw [answer, answer, Call.action, Emulator.after, Emulator.after, memory]
      cases e.machine.memory.write address (byteOf value) <;>
        exact ⟨rfl, _, ⟨random, bytes, rfl⟩, rfl⟩

end SameButDialect

/-- **Dialects matter where they disagree and nowhere else.** Take two emulators that differ in
nothing but the dialect. A step gives the same event in both and leaves them so, unless it executes
an instruction on which the dialects disagree. So do any calls that execute no such instruction. -/
theorem dialects_matter_where_disputed (same : SameButDialect d e e') :
    (¬ e.machine.Disputed d → SameReport d e.step e'.step) ∧
      ∀ calls, e.AllSettled d calls →
        e'.answers calls = e.answers calls ∧
          SameButDialect d (e.afterCalls calls) (e'.afterCalls calls) := by
  refine ⟨same.step, fun calls settled => ?_⟩
  induction calls generalizing e e' with
  | nil => exact ⟨rfl, same⟩
  | cons c rest ih =>
      obtain ⟨first, others⟩ := settled
      obtain ⟨answer, after⟩ := same.call first
      obtain ⟨answers', after'⟩ := ih after others
      refine ⟨?_, after'⟩
      rw [answers, answers, answer, answers']

/-- A dialect whose choices are all other than those of the modern one. -/
def contrary : Dialect := ⟨"contrary", true, true, false, false, false⟩

/-- A shift of equal registers, an index within the memory, a sprite on the screen, and a jump by
registers that are equal. -/
def undivided : Emulator :=
  loaded .fault 300 [0x60, 0x05, 0x61, 0x05, 0x80, 0x16, 0x62, 0x02, 0xA0, 0x00, 0xF0, 0x1E, 0xD0, 0x15,
    0xB2, 0x0C]

theorem undivided_under_contrary :
    (undivided.withMachine (undivided.machine.under contrary undivided.machine.random)).answers
        [.step, .runFrame, .tick, .run 2] =
      undivided.answers [.step, .runFrame, .tick, .run 2] := by
  have same : SameButDialect contrary undivided
      (undivided.withMachine (undivided.machine.under contrary undivided.machine.random)) :=
    ⟨_, ⟨_, fun _ => rfl, rfl⟩, rfl⟩
  have settled : undivided.AllSettled contrary [.step, .runFrame, .tick, .run 2] := by
    decide +kernel
  exact ((dialects_matter_where_disputed same).2 _ settled).1

end Chip8.Emulator
