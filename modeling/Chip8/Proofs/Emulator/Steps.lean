import Chip8.Emulator.Basic
import Chip8.Proofs.Machine.Refusal

/-!
# Single steps of an emulator

A step either executes an instruction and is counted, or it ends in the event of a fault. Then
nothing happened: neither the machine nor any count has moved, and trying again as often as one
likes gives the same event each time. What is not covered by this is stated by `Unmoved`: the key
wait, the event that the debugger remembers, and the trace.
-/

namespace Chip8.Emulator

open Chip8.Text Chip8.Debug

/-- A new emulator of the modern dialect with a program in it. -/
def loaded (policy : Policy) (frequency : Nat) (program : List UInt8) : Emulator :=
  { ofMachine (.fresh .modern policy (.constant 0)) frequency with program := program }.reset

/-- The emulator after so many steps, whether they failed or not. -/
def afterSteps : Emulator → Nat → Emulator
  | e, 0 => e
  | e, k + 1 => afterSteps e.step.2 k

/-- Two emulators that agree in everything but the key wait, the last event and the trace: in
registers, stack, timers, memory, screen, keypad, random bytes and last instruction, in the
counts and the credit, and in what the debugger has to stop for. -/
def Unmoved (e e' : Emulator) : Prop :=
  ∃ waiting last trace,
    e' = { e with
      machine := { e.machine with waitingForKey := waiting }
      debugger := { e.debugger with lastEvent := last }
      trace := trace }

theorem Unmoved.refl (e : Emulator) : Unmoved e e := ⟨_, _, _, rfl⟩

theorem Unmoved.trans {e e' e'' : Emulator} (h : Unmoved e e') (h' : Unmoved e' e'') :
    Unmoved e e'' := by
  obtain ⟨_, _, _, rfl⟩ := h
  obtain ⟨waiting, last, trace, rfl⟩ := h'
  exact ⟨waiting, last, trace, rfl⟩

/-! ## The two outcomes of a step -/

theorem traceFetch_eq (e : Emulator) : e.traceFetch = { e with trace := e.traceFetch.trace } := by
  unfold traceFetch
  split
  · rfl
  · rfl

/-- What is traced depends on nothing but the fetch and whether someone wants to know. -/
theorem traceFetch_trace (e : Emulator) :
    e.traceFetch.trace = match e.tracing, e.machine.fetch with
      | true, .ok w => (e.machine.pc, w) :: e.trace
      | _, _ => e.trace := by
  unfold traceFetch
  cases e.tracing with
  | false => rfl
  | true => cases e.machine.fetch <;> rfl

/-- A step that the machine fails is not counted. -/
theorem step_of_error {e : Emulator} {m : Machine} {f : Fault}
    (h : e.machine.step = (m, .error f)) :
    e.step = (faultEvent f,
      { e with
        machine := m
        debugger := e.debugger.record (faultEvent f)
        trace := e.traceFetch.trace }) := by
  unfold step
  rw [traceFetch_eq e]
  simp only [h]

/-- A step that the machine executes is counted. -/
theorem step_of_ok {e : Emulator} {m : Machine} {i : Instruction}
    (h : e.machine.step = (m, .ok i)) :
    e.step = (stepEvent e.machine.pc i m.waitingForKey,
      { e with
        machine := m
        totalSteps := e.totalSteps + 1
        trace := e.traceFetch.trace }) := by
  unfold step
  rw [traceFetch_eq e]
  simp only [h]

theorem step_machine (e : Emulator) : e.step.2.machine = e.machine.step.1 := by
  rcases h : e.machine.step with ⟨m, f | i⟩
  · rw [step_of_error h]
  · rw [step_of_ok h]

/-- The event of a step is told by what the machine does. -/
theorem step_event (e : Emulator) :
    e.step.1 = match e.machine.step.2 with
      | .ok i => stepEvent e.machine.pc i e.machine.step.1.waitingForKey
      | .error f => faultEvent f := by
  rcases h : e.machine.step with ⟨m, f | i⟩
  · rw [step_of_error h]
  · rw [step_of_ok h]

/-- Emulators with the same machine have the same next event. -/
theorem step_event_congr {e e' : Emulator} (h : e'.machine = e.machine) : e'.step.1 = e.step.1 := by
  rw [step_event, step_event, h]

/-- The machines that steps go through depend on no other part of the emulator. -/
theorem afterSteps_machine {e e' : Emulator} (h : e'.machine = e.machine) (k : Nat) :
    (e'.afterSteps k).machine = (e.afterSteps k).machine := by
  induction k generalizing e e' with
  | zero => exact h
  | succ k ih =>
      apply ih
      rw [step_machine, step_machine, h]

theorem stepEvent_reason_ne_fault (pc : UInt16) (i : Instruction) (waiting : Bool) :
    (stepEvent pc i waiting).reason ≠ .fault := by
  cases waiting with
  | true => exact fun h => Reason.noConfusion h
  | false => exact fun h => Reason.noConfusion h

/-- The event of a step tells whether the machine failed. -/
theorem step_reason_eq_fault_iff (e : Emulator) :
    e.step.1.reason = .fault ↔ ∃ m f, e.machine.step = (m, .error f) := by
  rcases h : e.machine.step with ⟨m, f | i⟩
  · rw [step_of_error h]
    exact ⟨fun _ => ⟨m, f, rfl⟩, fun _ => rfl⟩
  · rw [step_of_ok h]
    refine ⟨fun hr => absurd hr (stepEvent_reason_ne_fault _ _ _), ?_⟩
    rintro ⟨_, _, he⟩
    cases he

/-! ## Steps that fail -/

/-- A failed step can be tried again from where it left off, with the same event. -/
theorem step_again {e : Emulator} (h : e.step.1.reason = .fault) :
    Unmoved e e.step.2 ∧ e.step.2.step.1 = e.step.1 := by
  obtain ⟨m, f, hm⟩ := (step_reason_eq_fault_iff e).mp h
  rw [step_of_error hm]
  constructor
  · have kept := Machine.step_error_unchanged hm
    exact ⟨m.waitingForKey, _, _, by rw [← kept]; rfl⟩
  · rw [step_of_error (Machine.step_error_again hm)]

/-- **A failed step is atomic.** Its event counts no instruction and names the program counter,
and the word there unless that could not be fetched. The emulator has not moved, and never does
however often the step is tried again: each time the event is the same, with its cause, address,
word and text. -/
theorem failed_step_atomic (e : Emulator) (h : e.step.1.reason = .fault) :
    (e.step.1.cycles = 0 ∧ e.step.1.address = some (e.machine.pc.toNat : Int) ∧
      e.step.1.word = e.machine.fetch.toOption.map fun w => (w.toNat : Int)) ∧
    ∀ n, Unmoved e (e.afterSteps n) ∧ (e.afterSteps n).step.1 = e.step.1 := by
  constructor
  · obtain ⟨m, f, hm⟩ := (step_reason_eq_fault_iff e).mp h
    rw [step_of_error hm]
    exact ⟨rfl, Machine.step_error_place hm⟩
  · -- the induction goes along the retries, so it is about every emulator that fails
    intro n
    induction n generalizing e with
    | zero => exact ⟨Unmoved.refl e, rfl⟩
    | succ n ih =>
        obtain ⟨moved, same⟩ := step_again h
        obtain ⟨moved', same'⟩ := ih e.step.2 (by rw [same]; exact h)
        exact ⟨moved.trans moved', same'.trans same⟩

/-- Three registers stored at `0xFFE`, where there is room for two: the first byte is not written
either. -/
def storeBeyondEnd : Emulator := (loaded .fault 700 [0xAF, 0xFE, 0xF2, 0x55]).afterSteps 1

theorem storeBeyondEnd_atomic :
    storeBeyondEnd.step.1.reason = .fault ∧
      ∀ n, Unmoved storeBeyondEnd (storeBeyondEnd.afterSteps n) ∧
        (storeBeyondEnd.afterSteps n).step.1 = storeBeyondEnd.step.1 := by
  have h : storeBeyondEnd.step.1.reason = .fault := by decide +kernel
  exact ⟨h, (failed_step_atomic storeBeyondEnd h).2⟩

end Chip8.Emulator
