import Chip8.Proofs.Debug.Check
import Chip8.Proofs.Emulator.Calls
import Chip8.Proofs.Emulator.Lockstep

/-!
# Emulators under two policies

An emulator under the policy that wraps does all that the same emulator does under the policy that
refuses, for as long as nothing is refused. This goes from one instruction to a run, from a run to
a frame and from there to any calls of a host: each time the two go on alike or the first one is
stopped by an access that was refused (`Follows`). An emulator under the policy that wraps never
reports such an access.
-/

namespace Chip8

open Chip8.Debug

/-! ## What the debugger sees -/

namespace Machine.SameState

variable {m m' : Machine}

theorem value (h : SameState m m') (r : Register) : r.value m' = r.value m := by
  cases r with
  | v r => exact congrArg (fun v => (v.get r).toNat) h.v.symm
  | index => exact congrArg UInt16.toNat h.index.symm
  | pc => exact congrArg UInt16.toNat h.pc.symm
  | stackPointer => exact congrArg List.length h.stack.symm
  | delay => exact congrArg Int.toNat h.delay.symm
  | sound => exact congrArg UInt8.toNat h.sound.symm

/-- A debugger sees nothing of a machine but what is saved of it. -/
theorem check (h : SameState m m') (d : Debugger) : d.check m' = d.check m := by
  have holds (c : Condition) : c.holds m' = c.holds m := by
    unfold Condition.holds
    rw [h.value]
  have met : d.metCondition? m' = d.metCondition? m := by
    unfold Debugger.metCondition?
    simp only [holds]
  have stop (reason : Reason) (message : String) :
      Debugger.stopEvent reason m' message = Debugger.stopEvent reason m message := by
    unfold Debugger.stopEvent
    rw [h.pc]
  unfold Debugger.check
  simp only [met, stop, h.pc]

end Machine.SameState

namespace Emulator

variable {p p' : Policy} {e e' : Emulator}

/-! ## Emulators that go on alike -/

/-- Two emulators that agree in all that their calls depend on, under a policy each. -/
structure Alike (p p' : Policy) (e e' : Emulator) : Prop where
  machine : Machine.Alike p p' e.machine e'.machine
  debugger : e.debugger = e'.debugger
  frequency : e.frequency = e'.frequency
  credit : e.credit = e'.credit
  totalSteps : e.totalSteps = e'.totalSteps
  totalTicks : e.totalTicks = e'.totalTicks

/-- The second outcome is like the first, unless that one reports the refusal of an access which
the second policy need not refuse. -/
def Follows (p p' : Policy) (o o' : Event × Emulator) : Prop :=
  (o'.1 = o.1 ∧ Alike p p' o.2 o'.2) ∨ p ≠ p' ∧ o.1.reason = .fault ∧ o.1.OfMemory

theorem Alike.tick (h : Alike p p' e e') : Alike p p' e.tick e'.tick := by
  refine ⟨h.machine.tick, h.debugger, h.frequency, h.credit, h.totalSteps, ?_⟩
  show e.totalTicks + 1 = e'.totalTicks + 1
  rw [h.totalTicks]

theorem Alike.withMachine (h : Alike p p' e e') {m m' : Machine} (alike : m.Alike p p' m') :
    Alike p p' (e.withMachine m) (e'.withMachine m') :=
  ⟨alike, h.debugger, h.frequency, h.credit, h.totalSteps, h.totalTicks⟩

theorem Alike.step (w : p.Within p') (h : Alike p p' e e') : Follows p p' e.step e'.step := by
  rcases h.machine.step w with ⟨answer, alike, waiting⟩ | ⟨other, f, failed, memory⟩
  · left
    rcases hm : e.machine.step with ⟨m, f | i⟩ <;> rcases hm' : e'.machine.step with ⟨m', x⟩ <;>
      rw [hm, hm'] at answer alike waiting <;> cases answer
    · rw [step_of_error hm, step_of_error hm']
      refine ⟨rfl, alike, ?_, h.frequency, h.credit, h.totalSteps, h.totalTicks⟩
      show e.debugger.record _ = e'.debugger.record _
      rw [h.debugger]
    · rw [step_of_ok hm, step_of_ok hm']
      refine ⟨?_, alike, h.debugger, h.frequency, h.credit, ?_, h.totalTicks⟩
      · show stepEvent e'.machine.pc i m'.waitingForKey = stepEvent e.machine.pc i m.waitingForKey
        rw [h.machine.pc, show m'.waitingForKey = m.waitingForKey from waiting i rfl]
      · show e.totalSteps + 1 = e'.totalSteps + 1
        rw [h.totalSteps]
  · right
    rw [step_event, failed]
    exact ⟨other, rfl, f, rfl, memory⟩

theorem Alike.lockstep (w : p.Within p') :
    Lockstep (Alike p p') (fun _ => True)
      (fun event => p ≠ p' ∧ event.reason = .fault ∧ event.OfMemory) where
  step h _ := h.step w
  tick h := h.tick
  withDebugger _ h := ⟨h.machine, rfl, h.frequency, h.credit, h.totalSteps, h.totalTicks⟩
  withCredit _ h := ⟨h.machine, h.debugger, h.frequency, rfl, h.totalSteps, h.totalTicks⟩
  debugger h := h.debugger.symm
  check d h := h.machine.check d
  pc h := h.machine.pc.symm
  credit h := h.credit.symm
  frequency h := h.frequency.symm
  fault parts := parts.2.1
  counted _ parts := parts

/-! ## Calls -/

/-- A call that neither executes an instruction nor ticks replaces the machine at most. -/
theorem after_eq_withMachine (e : Emulator) {c : Call} (single : c.single) (step : c ≠ .step)
    (tick : c ≠ .tick) : e.after c.action = e.withMachine (e.after c.action).machine := by
  cases c with
  | step => exact absurd rfl step
  | tick => exact absurd rfl tick
  | skip => rfl
  | press key =>
      rw [Call.action, Emulator.after, press_eq]
      cases key.resolve <;> rfl
  | release key =>
      rw [Call.action, Emulator.after, release_eq]
      cases key.resolve <;> rfl
  | write address value =>
      rw [Call.action, Emulator.after]
      split <;> rfl
  | run | runFrame | runFor => cases single

theorem Alike.hostCall (w : p.Within p') (h : Alike p p' e e') {c : Call} (single : c.single)
    (step : c ≠ .step) (tick : c ≠ .tick) :
    (e'.answer c = e.answer c ∧ Alike p p' (e.after c.action) (e'.after c.action)) ∨
      p ≠ p' ∧ (e.answer c).OfMemory := by
  rcases answer_follows w h.machine single with ⟨same, machine⟩ | refused
  · left
    rw [after_eq_withMachine e single step tick, after_eq_withMachine e' single step tick]
    exact ⟨same, h.withMachine machine⟩
  · exact Or.inr refused

/-- Any call is answered alike and leaves the emulators alike, or reports a refused access. -/
theorem Alike.call (w : p.Within p') (h : Alike p p' e e') (c : Call) :
    (e'.answer c = e.answer c ∧ Alike p p' (e.after c.action) (e'.after c.action)) ∨
      p ≠ p' ∧ (e.answer c).OfMemory := by
  have answered {o o' : Event × Emulator} (f : Follows p p' o o') :
      (Answer.event o'.1 = .event o.1 ∧ Alike p p' o.2 o'.2) ∨
        p ≠ p' ∧ (Answer.event o.1).OfMemory := by
    rcases f with ⟨event, after⟩ | ⟨other, -, memory⟩
    · exact Or.inl ⟨congrArg Answer.event event, after⟩
    · exact Or.inr ⟨other, memory⟩
  cases c with
  | step => exact answered (h.step w)
  | tick => exact Or.inl ⟨rfl, h.tick⟩
  | run limit => exact answered ((Alike.lockstep w).run h fun _ _ => trivial)
  | runFrame => exact answered ((Alike.lockstep w).runFrame h fun _ _ => trivial)
  | runFor seconds =>
      rw [answer, answer, Call.action, Emulator.after, Emulator.after, runFor, runFor]
      cases framesIn seconds with
      | error err => exact Or.inl ⟨rfl, h⟩
      | ok frames => exact answered ((Alike.lockstep w).runFrames h fun _ _ _ _ _ => trivial)
  | skip | press | release | write =>
      apply h.hostCall w rfl
      · intro step
        cases step
      · intro tick
        cases tick

/-! ## Under the policy that wraps -/

theorem kept_policy (p : Policy) : Kept fun e => e.machine.memory.policy = p where
  step h := by
    rw [step_machine, Machine.step_policy]
    exact h
  tick h := h
  skip h := h
  debugger _ h := h
  credit _ _ h := h

theorem step_of_wrap (h : e.machine.memory.policy = .wrap) : ¬ e.step.1.OfMemory := by
  rintro ⟨f, failed, memory⟩
  rcases hm : e.machine.step with ⟨m, g | i⟩
  · rw [step_of_error hm] at failed
    cases failed
    rw [Machine.eq_fault_of_step hm memory] at h
    cases h
  · rw [step_of_ok hm] at failed
    unfold stepEvent at failed
    split at failed
    · cases failed
    · cases failed

theorem after_of_wrap (h : e.machine.memory.policy = .wrap) (c : Call) :
    (e.after c.action).machine.memory.policy = .wrap := by
  have self : Alike .wrap .wrap e e := ⟨Machine.alike_self h, rfl, rfl, rfl, rfl, rfl⟩
  rcases self.call (Or.inl rfl) c with ⟨-, after⟩ | ⟨other, -⟩
  · exact after.machine.policy
  · exact absurd rfl other

theorem reports_of_wrap :
    Reports (fun e => e.machine.memory.policy = .wrap) fun event => ¬ event.OfMemory where
  toKept := kept_policy .wrap
  report := step_of_wrap
  quiet _ none := by
    rintro ⟨f, failed, -⟩
    rw [none] at failed
    cases failed
  cycles _ harmless := harmless

theorem answer_of_wrap (h : e.machine.memory.policy = .wrap) (c : Call) :
    ¬ (e.answer c).OfMemory := by
  cases c with
  | step => exact step_of_wrap h
  | tick | skip => exact id
  | run limit => exact reports_of_wrap.run h
  | runFrame => exact reports_of_wrap.runFrame h
  | runFor seconds =>
      rw [answer, runFor]
      cases framesIn seconds with
      | error err => exact id
      | ok frames => exact reports_of_wrap.runFrames h
  | press key =>
      rw [answer, press_eq]
      cases key.resolve with
      | error err => exact id
      | ok key => exact id
  | release key =>
      rw [answer, release_eq]
      cases key.resolve with
      | error err => exact id
      | ok key => exact id
  | write address value =>
      rw [answer, Memory.write_of_allows _ (Or.inl h)]
      exact id

/-- **Refusing refines wrapping.** Of two emulators that differ in nothing but the policy, the one
that wraps gives the same answers as the other and is left in the same state, with the same
counts, as long as the other has not reported a refused access. It never reports one itself. -/
theorem refusing_refines_wrapping (h : Alike .fault .wrap e e') (calls : List Call) :
    ((∀ a ∈ e.answers calls, ¬ a.OfMemory) →
        e'.answers calls = e.answers calls ∧
          Alike .fault .wrap (e.afterCalls calls) (e'.afterCalls calls)) ∧
      ∀ a ∈ e'.answers calls, ¬ a.OfMemory := by
  constructor
  · intro quiet
    induction calls generalizing e e' with
    | nil => exact ⟨rfl, h⟩
    | cons c rest ih =>
        have first : ¬ (e.answer c).OfMemory := quiet _ List.mem_cons_self
        rcases h.call (Or.inr rfl) c with ⟨same, after⟩ | ⟨-, memory⟩
        · obtain ⟨sames, afters⟩ := ih after fun a ha => quiet a (List.mem_cons_of_mem _ ha)
          refine ⟨?_, afters⟩
          rw [answers, answers, same, sames]
        · exact absurd memory first
  · -- here the one that refuses plays no part: it may have stopped long ago
    have wraps : e'.machine.memory.policy = .wrap := h.machine.policy'
    clear h
    induction calls generalizing e' with
    | nil =>
        intro a none
        cases none
    | cons c rest ih =>
        intro a listed
        rcases List.mem_cons.mp listed with rfl | later
        · exact answer_of_wrap wraps c
        · exact ih (after_of_wrap wraps c) a later

theorem alike_loaded (p p' : Policy) (frequency : Nat) (program : List UInt8) :
    Alike p p' (loaded p frequency program) (loaded p' frequency program) :=
  ⟨⟨⟨rfl, rfl, rfl, rfl, rfl, rfl, rfl, rfl⟩, rfl, rfl, fun _ => rfl, rfl, rfl⟩, rfl, rfl, rfl, rfl,
    rfl⟩

/-- A program that stores two registers in the last two bytes of the memory and reads them again,
for ever. -/
def lastBytes : List UInt8 := [0xAF, 0xFE, 0xF1, 0x55, 0xAF, 0xFE, 0xF1, 0x65, 0x12, 0x00]

theorem lastBytes_refines :
    (∀ a ∈ (loaded .fault 120 lastBytes).answers
        [.run 3, .runFrame, .press (.number 16), .step, .skip, .tick, .write 0xFFF 1],
      ¬ a.OfMemory) ∧
    (loaded .wrap 120 lastBytes).answers
        [.run 3, .runFrame, .press (.number 16), .step, .skip, .tick, .write 0xFFF 1] =
      (loaded .fault 120 lastBytes).answers
        [.run 3, .runFrame, .press (.number 16), .step, .skip, .tick, .write 0xFFF 1] := by
  have quiet : ∀ a ∈ (loaded .fault 120 lastBytes).answers
      [.run 3, .runFrame, .press (.number 16), .step, .skip, .tick, .write 0xFFF 1],
      ¬ a.OfMemory := by decide +kernel
  have alike := alike_loaded .fault .wrap 120 lastBytes
  exact ⟨quiet, ((refusing_refines_wrapping alike _).1 quiet).1⟩

end Emulator

end Chip8
