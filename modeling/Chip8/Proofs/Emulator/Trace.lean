import Chip8.Proofs.Emulator.Lockstep

/-!
# Traces

The trace is what a host sees of a run: the address and the word of every instruction that was
fetched, in the order in which they were tried. To keep a trace changes nothing but the trace
(`SameButTrace`), so what a run does can be read off the trace of the same emulator with the trace
switched on (`watched`).
-/

namespace Chip8.Emulator

open Chip8.Debug

variable {e e' : Emulator}

/-- The emulator with an empty trace, and the trace switched on. -/
def watched (e : Emulator) : Emulator := { e with tracing := true, trace := [] }

/-- The addresses of the fetched instructions, the earliest first. -/
def addresses (e : Emulator) : List UInt16 := (e.trace.map Prod.fst).reverse

/-! ## To keep a trace changes nothing else -/

/-- Two emulators that agree in everything but the trace. -/
def SameButTrace (e e' : Emulator) : Prop :=
  ∃ tracing trace, e' = { e with tracing := tracing, trace := trace }

/-- Two outcomes with the same event, and with emulators that agree in everything but the trace. -/
def SameOutcome (o o' : Event × Emulator) : Prop := o'.1 = o.1 ∧ SameButTrace o.2 o'.2

theorem sameButTrace_watched (e : Emulator) : SameButTrace e e.watched := ⟨_, _, rfl⟩

namespace SameButTrace

theorem machine (s : SameButTrace e e') : e'.machine = e.machine := by
  obtain ⟨_, _, rfl⟩ := s
  rfl

theorem step (s : SameButTrace e e') : SameOutcome e.step e'.step := by
  obtain ⟨tracing, trace, rfl⟩ := s
  rcases h : e.machine.step with ⟨m, f | i⟩
  · rw [step_of_error h, step_of_error (e := { e with tracing := tracing, trace := trace }) h]
    exact ⟨rfl, _, _, rfl⟩
  · rw [step_of_ok h, step_of_ok (e := { e with tracing := tracing, trace := trace }) h]
    exact ⟨rfl, _, _, rfl⟩

theorem lockstep : Lockstep SameButTrace (fun _ => True) (fun _ => False) where
  step s _ := Or.inl s.step
  tick s := by
    obtain ⟨_, _, rfl⟩ := s
    exact ⟨_, _, rfl⟩
  withDebugger _ s := by
    obtain ⟨_, _, rfl⟩ := s
    exact ⟨_, _, rfl⟩
  withCredit _ s := by
    obtain ⟨_, _, rfl⟩ := s
    exact ⟨_, _, rfl⟩
  debugger s := by
    obtain ⟨_, _, rfl⟩ := s
    rfl
  check d s := by rw [s.machine]
  pc s := by rw [s.machine]
  credit s := by
    obtain ⟨_, _, rfl⟩ := s
    rfl
  frequency s := by
    obtain ⟨_, _, rfl⟩ := s
    rfl
  fault := False.elim
  counted _ := id

theorem runFrames (s : SameButTrace e e') (frames : Nat) :
    SameOutcome (e.runFrames frames) (e'.runFrames frames) :=
  (lockstep.runFrames s fun _ _ _ _ _ => trivial).resolve_right id

end SameButTrace

/-! ## What is traced -/

/-- A step traces what it fetches, with its address. -/
theorem addresses_step (h : e.tracing = true) :
    e.step.2.addresses =
      e.addresses ++ if e.machine.fetch.toOption.isSome then [e.machine.pc] else [] := by
  have traced : e.step.2.trace = e.traceFetch.trace := by
    rcases hs : e.machine.step with ⟨m, f | i⟩
    · rw [step_of_error hs]
    · rw [step_of_ok hs]
  unfold addresses
  rw [traced, traceFetch, h]
  cases e.machine.fetch with
  | error f => simp [Except.toOption]
  | ok w => simp [Except.toOption]

end Chip8.Emulator
