import Mathlib.Logic.Function.Iterate
import Chip8.Proofs.Debug.Check
import Chip8.Proofs.Emulator.Calls
import Chip8.Proofs.Machine.Waiting

/-!
# Waits for a key

A program that waits for a key is at the same instruction again and again. As long as no key is
down and the debugger has nothing to stop for, steps, ticks and frames in any order do nothing but
let time go by (`Idled`): the counts and the timers go on, and registers, stack, memory, pixels and
keypad stay. A frame goes through all its instructions, each of them being the same wait. Once some
keys are down the next step takes the lowest one, and the wait is over.
-/

namespace Chip8

open Chip8.Debug

namespace Call

def isStep : Call → Bool
  | step => true
  | _ => false

/-- The call lets the timers tick once, if it is not stopped. -/
def ticks : Call → Bool
  | tick | runFrame => true
  | _ => false

/-- The call presses or releases a key. -/
def isKey : Call → Bool
  | press _ | release _ => true
  | _ => false

end Call

namespace Emulator

variable {e e' e'' : Emulator} {i : Instruction}

/-! ## Emulators that wait -/

/-- The next instruction waits for a key, none is down, and there is nothing to stop for. -/
structure Waits (i : Instruction) (e : Emulator) : Prop where
  here : e.machine.current? = some i
  op : i.op = .waitKey
  released : ∀ key, e.machine.keypad.down.get key = false
  quiet : e.debugger.Quiet

/-- Nothing but time has gone by: so many steps, all of them waits, and so many ticks. -/
def Idled (e : Emulator) (steps ticks : Nat) (e' : Emulator) : Prop :=
  ∃ last credit trace,
    e' = { e with
      machine := { e.machine with
        waitingForKey := e.machine.waitingForKey || decide (0 < steps)
        lastInstruction := last
        timers := Timers.tick^[ticks] e.machine.timers }
      totalSteps := e.totalSteps + steps
      totalTicks := e.totalTicks + ticks
      credit := credit
      trace := trace }

namespace Idled

variable {steps ticks steps' ticks' : Nat}

theorem credit (e : Emulator) (credit : Nat) : Idled e 0 0 { e with credit := credit } := by
  refine ⟨e.machine.lastInstruction, credit, e.trace, ?_⟩
  rw [show decide (0 < 0) = false from rfl, Bool.or_false]
  rfl

theorem refl (e : Emulator) : Idled e 0 0 e := credit e e.credit

theorem tick (e : Emulator) : Idled e 0 1 e.tick := by
  refine ⟨e.machine.lastInstruction, e.credit, e.trace, ?_⟩
  rw [show decide (0 < 0) = false from rfl, Bool.or_false]
  rfl

theorem trans (h : Idled e steps ticks e') (h' : Idled e' steps' ticks' e'') :
    Idled e (steps + steps') (ticks + ticks') e'' := by
  obtain ⟨_, _, _, rfl⟩ := h
  obtain ⟨last, credit, trace, rfl⟩ := h'
  have waiting : (decide (0 < steps) || decide (0 < steps')) = decide (0 < steps + steps') := by
    rw [← Bool.decide_or, decide_eq_decide]
    omega
  have timers : Timers.tick^[ticks + ticks'] e.machine.timers =
      Timers.tick^[ticks'] (Timers.tick^[ticks] e.machine.timers) := by
    rw [Nat.add_comm, Function.iterate_add_apply]
  refine ⟨last, credit, trace, ?_⟩
  rw [timers, ← waiting, ← Bool.or_assoc, ← Nat.add_assoc, ← Nat.add_assoc]

/-- Who waits goes on waiting. -/
theorem waits (h : Idled e steps ticks e') (w : Waits i e) : Waits i e' := by
  obtain ⟨_, _, _, rfl⟩ := h
  exact ⟨w.here, w.op, w.released, w.quiet⟩

end Idled

namespace Waits

/-- **A step waits**, and the same instruction is next. -/
theorem step (w : Waits i e) :
    e.step.1 = stepEvent e.machine.pc i true ∧ Idled e 1 0 e.step.2 := by
  have stepped := Machine.step_of_released w.here w.op (Keypad.first?_of_released w.released)
  rw [step_of_ok stepped]
  refine ⟨rfl, some i, e.credit, e.traceFetch.trace, ?_⟩
  rw [show decide (0 < 1) = true from rfl, Bool.or_true]
  rfl

/-- A run that goes on at waits makes all its steps. -/
theorem runOn (w : Waits i e) (limit : Int) (executed left : Nat) :
    (e.runOn limit false executed left).1 =
        (e.runOn limit false executed left).2.exhausted limit (executed + left) ∧
      Idled e left 0 (e.runOn limit false executed left).2 := by
  induction left generalizing e executed with
  | zero => exact ⟨rfl, Idled.refl e⟩
  | succ left ih =>
      obtain ⟨event, idled⟩ := w.step
      obtain ⟨ended, rest⟩ := ih (idled.waits w) (executed + 1)
      have went : e.step.1.reason ≠ .fault := by
        rw [event]
        exact stepEvent_reason_ne_fault _ _ _
      have turn : e.runOn limit false executed (left + 1) =
          e.step.2.runOn limit false (executed + 1) left := by
        rw [runOn_succ_of_quiet w.quiet, if_neg went,
          if_neg fun stops => Bool.noConfusion stops.2]
      rw [turn]
      refine ⟨?_, ?_⟩
      · rw [ended, Nat.add_assoc, Nat.add_comm 1 left]
      · rw [Nat.add_comm left 1]
        exact idled.trans rest

/-- **A frame waits all the time**, and then there is a tick. -/
theorem runFrame (w : Waits i e) :
    e.runFrame.1.reason = .step ∧ e.runFrame.1.cycles = e.owed ∧
      Idled e e.owed 1 e.runFrame.2 := by
  have paid : Idled e 0 0 e.frameStart := Idled.credit e _
  obtain ⟨event, ran⟩ := (paid.waits w).runOn e.owed 0 e.owed
  have spent : e.frameRun.1.reason = .maxSteps := congrArg Event.reason event
  have cycles : e.frameRun.1.cycles = 0 + e.owed := congrArg Event.cycles event
  have idled : Idled e (0 + e.owed) (0 + 0) e.frameRun.2 := paid.trans ran
  have ticked := idled.trans (Idled.tick _)
  rw [runFrame_eq, if_neg (not_not_intro spent)]
  rw [Nat.zero_add] at cycles ticked
  exact ⟨rfl, cycles, ticked⟩

theorem call (w : Waits i e) {c : Call} (idle : c.isStep || c.ticks) :
    ∃ steps, (if c.isStep then 1 else 0) ≤ steps ∧
      Idled e steps (if c.ticks then 1 else 0) (e.after c.action) := by
  cases c with
  | step => exact ⟨1, Nat.le_refl 1, w.step.2⟩
  | tick => exact ⟨0, Nat.le_refl 0, Idled.tick e⟩
  | runFrame => exact ⟨e.owed, Nat.zero_le _, w.runFrame.2.2⟩
  | skip | press | release | write | run | runFor => cases idle

theorem afterCalls (w : Waits i e) {calls : List Call} (idle : ∀ c ∈ calls, c.isStep || c.ticks) :
    ∃ steps, calls.countP Call.isStep ≤ steps ∧
      Idled e steps (calls.countP Call.ticks) (e.afterCalls calls) := by
  induction calls generalizing e with
  | nil => exact ⟨0, Nat.le_refl 0, Idled.refl e⟩
  | cons c rest ih =>
      obtain ⟨steps, one, idled⟩ := w.call (idle c List.mem_cons_self)
      obtain ⟨steps', others, idled'⟩ :=
        ih (idled.waits w) fun c later => idle c (List.mem_cons_of_mem _ later)
      refine ⟨steps + steps', ?_, ?_⟩
      · rw [List.countP_cons, Nat.add_comm]
        exact Nat.add_le_add one others
      · rw [List.countP_cons, Nat.add_comm (rest.countP Call.ticks)]
        exact idled.trans idled'

end Waits

/-! ## Keys -/

/-- Keys change the keypad and nothing else, however many are pressed and released. -/
theorem afterCalls_keys (e : Emulator) {keys : List Call} (h : ∀ c ∈ keys, c.isKey) :
    ∃ keypad, e.afterCalls keys = e.withMachine { e.machine with keypad := keypad } := by
  induction keys generalizing e with
  | nil => exact ⟨_, rfl⟩
  | cons c rest ih =>
      have one : ∃ keypad,
          e.after c.action = e.withMachine { e.machine with keypad := keypad } := by
        have only := h c List.mem_cons_self
        cases c with
        | press key => exact after_setKey e key (Or.inl rfl)
        | release key => exact after_setKey e key (Or.inr rfl)
        | step | tick | skip | write | run | runFrame | runFor => cases only
      obtain ⟨first, after⟩ := one
      obtain ⟨keypad, others⟩ :=
        ih (e.after c.action) fun c later => h c (List.mem_cons_of_mem _ later)
      refine ⟨keypad, ?_⟩
      rw [Emulator.afterCalls, others, after]
      rfl

/-- The next step takes the lowest key that is down, and with it the wait is over. -/
structure TakesKey (i : Instruction) (key : Fin 16) (e : Emulator) : Prop where
  held : e.machine.keypad.down.get key = true
  lowest : ∀ lower, lower < key → e.machine.keypad.down.get lower = false
  reason : e.step.1.reason = .step
  cycles : e.step.1.cycles = 1
  pc : e.step.2.machine.pc.toNat = (e.machine.pc.toNat + 2) % 65536
  machine : e.step.2.machine =
    { e.machine with
      v := Table.put e.machine.v i.x (UInt8.ofNat key)
      pc := e.machine.pc + 2
      waitingForKey := false
      lastInstruction := some i }

theorem takes_lowest (here : e.machine.current? = some i) (op : i.op = .waitKey)
    (held : ∃ key, e.machine.keypad.down.get key = true) : ∃ key, TakesKey i key e := by
  obtain ⟨key, first, down, lowest⟩ := Keypad.first?_of_held held
  have stepped := Machine.step_of_held here op first
  have event := congrArg Prod.fst (step_of_ok stepped)
  have machine := congrArg (fun o => o.2.machine) (step_of_ok stepped)
  refine ⟨key, down, lowest, congrArg Event.reason event, congrArg Event.cycles event, ?_, machine⟩
  rw [machine]
  exact UInt16.toNat_add e.machine.pc 2

/-! ## Stuttering -/

/-- The next step waits, and so would all steps of a frame, which is not stopped before its
tick. -/
structure Stutters (e : Emulator) : Prop where
  reason : e.step.1.reason = .keyWait
  cycles : e.step.1.cycles = 1
  step : Idled e 1 0 e.step.2
  frameReason : e.runFrame.1.reason = .step
  frameCycles : e.runFrame.1.cycles = e.owed
  frame : Idled e e.owed 1 e.runFrame.2

theorem Waits.stutters (w : Waits i e) : Stutters e := by
  obtain ⟨event, step⟩ := w.step
  obtain ⟨frameReason, frameCycles, frame⟩ := w.runFrame
  refine ⟨?_, ?_, step, frameReason, frameCycles, frame⟩
  · rw [event]
    rfl
  · rw [event]
    rfl

/-- **Waits for a key stutter.** As long as no key is down, any steps, ticks and frames do nothing
but let time go by, and behind them the next step waits and the next frame is one of waits. When
some keys are held then, the next step takes the lowest one and goes on behind the instruction;
nothing else is changed. -/
theorem key_waits_stutter (w : Waits i e) {calls : List Call}
    (idle : ∀ c ∈ calls, c.isStep || c.ticks) :
    (∃ steps, calls.countP Call.isStep ≤ steps ∧
        Idled e steps (calls.countP Call.ticks) (e.afterCalls calls)) ∧
      Stutters (e.afterCalls calls) ∧
      ∀ keys : List Call, (∀ c ∈ keys, c.isKey) →
        (∃ key, ((e.afterCalls calls).afterCalls keys).machine.keypad.down.get key = true) →
          ∃ key, TakesKey i key ((e.afterCalls calls).afterCalls keys) := by
  obtain ⟨steps, enough, idled⟩ := w.afterCalls idle
  have still := idled.waits w
  refine ⟨⟨steps, enough, idled⟩, still.stutters, ?_⟩
  intro keys only held
  obtain ⟨keypad, set⟩ := afterCalls_keys (e.afterCalls calls) only
  rw [set] at held ⊢
  exact takes_lowest still.here still.op held

/-- A wait at the last word before the program counter starts over, in a memory that repeats. -/
def waitsAtEnd : Emulator :=
  (((loaded .wrap 90 []).after (.write 0xFFE 0xF5)).after (.write 0xFFF 0x0A)).after
    (.setRegister .pc 0xFFFE)

theorem waitsAtEnd_stutters :
    Stutters (waitsAtEnd.afterCalls [.step, .runFrame, .tick, .runFrame]) ∧
      ∃ key, TakesKey (decode 0xF50A) key
        ((waitsAtEnd.afterCalls [.step, .runFrame, .tick, .runFrame]).afterCalls
          [.press (.named "v"), .press (.number 0), .press (.number 7), .release (.named "X")]) := by
  have waits : Waits (decode 0xF50A) waitsAtEnd :=
    ⟨by decide +kernel, by decide, by decide +kernel, by decide +kernel, by decide +kernel,
      by decide +kernel⟩
  have idle : ∀ c ∈ [Call.step, .runFrame, .tick, .runFrame], c.isStep || c.ticks := by decide
  obtain ⟨-, stutters, takes⟩ := key_waits_stutter waits idle
  exact ⟨stutters, takes _ (by decide) ⟨7, by decide +kernel⟩⟩

end Emulator

end Chip8
