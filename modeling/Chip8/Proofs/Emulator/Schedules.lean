import Chip8.Proofs.Emulator.Steps
import Chip8.Proofs.Machine.Untimed

/-!
# Schedules of steps and ticks

An emulator is driven by steps and ticks in some order. Where the instruction at the program counter
has nothing to do with timers, or fails, the order of a step and a tick makes no difference
(`tick_step`). So ticks can be put off and on as long as they pass no instruction that reads or sets
a timer: two schedules with the same ticks before each of these, and with the same steps and ticks
on the whole, report the same events and end in the same emulator.
-/

namespace Chip8.Emulator

open Chip8.Debug

/-! ## A step and a tick -/

/-- The instruction at the program counter reads or sets a timer. -/
def atTimer (e : Emulator) : Bool := e.machine.atTimer

/-- **Steps and ticks commute** where no timer is read or set. -/
theorem tick_step {e : Emulator} (h : e.atTimer = false) :
    e.tick.step = (e.step.1, e.step.2.tick) := by
  have machine : e.tick.machine.step = (e.machine.step.1.tick, e.machine.step.2) :=
    Machine.tick_step h
  have trace : e.tick.traceFetch.trace = e.traceFetch.trace := by
    rw [traceFetch_trace, traceFetch_trace]
    rfl
  rcases hm : e.machine.step with ⟨m, f | i⟩ <;> rw [hm] at machine
  · rw [step_of_error machine, step_of_error hm, trace]
    rfl
  · rw [step_of_ok machine, step_of_ok hm, trace]
    rfl

theorem not_atTimer_of_fault {e : Emulator} (h : e.step.1.reason = .fault) :
    e.atTimer = false := by
  obtain ⟨m, f, failed⟩ := (step_reason_eq_fault_iff e).mp h
  exact Machine.not_atTimer_of_error failed

/-! ## Many ticks -/

/-- The emulator after so many ticks. -/
def afterTicks (e : Emulator) : Nat → Emulator
  | 0 => e
  | n + 1 => (e.afterTicks n).tick

theorem atTimer_afterTicks (e : Emulator) (n : Nat) : (e.afterTicks n).atTimer = e.atTimer := by
  induction n with
  | zero => rfl
  | succ n ih => exact ih

theorem afterTicks_step {e : Emulator} (h : e.atTimer = false) (n : Nat) :
    (e.afterTicks n).step = (e.step.1, e.step.2.afterTicks n) := by
  induction n with
  | zero => rfl
  | succ n ih =>
      rw [afterTicks, tick_step ((atTimer_afterTicks e n).trans h), ih]
      rfl

/-! ## Schedules -/

/-- What drives an emulator. -/
inductive Beat
  | step
  | tick
  deriving DecidableEq, Repr

/-- The events of a schedule, one for each step, and the emulator behind it. -/
def play : Emulator → List Beat → List Event × Emulator
  | e, [] => ([], e)
  | e, .step :: rest => ((e.step.1 :: (play e.step.2 rest).1), (play e.step.2 rest).2)
  | e, .tick :: rest => play e.tick rest

/-- For each step of a schedule the ticks that come before it, when there were `n` already. -/
def clock : Nat → List Beat → List Nat
  | _, [] => []
  | n, .step :: rest => n :: clock n rest
  | n, .tick :: rest => clock (n + 1) rest

/-- For each step of a schedule whether it reads or sets a timer. -/
def timerSteps : Emulator → List Beat → List Bool
  | _, [] => []
  | e, .step :: rest => e.atTimer :: timerSteps e.step.2 rest
  | e, .tick :: rest => timerSteps e.tick rest

/-- Two schedules with as many steps and as many ticks. Steps that read or set a timer are behind
as many ticks in one as in the other; of all other steps nothing is said. -/
structure SameTimes (e : Emulator) (s s' : List Beat) : Prop where
  steps : s.count .step = s'.count .step
  ticks : s.count .tick = s'.count .tick
  timed : ∀ k : Nat, (timerSteps e s)[k]? = some true → (clock 0 s)[k]? = (clock 0 s')[k]?

/-- What is left of two schedules. Since the emulator `e`, which had `n` ticks, one schedule is `p`
ticks and the other `p'` ticks ahead. -/
structure Ahead (e : Emulator) (n p p' : Nat) (s s' : List Beat) : Prop where
  steps : s.count .step = s'.count .step
  ticks : p + s.count .tick = p' + s'.count .tick
  timed : ∀ k : Nat, (timerSteps (e.afterTicks p) s)[k]? = some true →
    (clock (n + p) s)[k]? = (clock (n + p') s')[k]?

namespace Ahead

variable {e : Emulator} {n p p' : Nat} {s s' : List Beat}

theorem tick_left (h : Ahead e n p p' (.tick :: s) s') : Ahead e n (p + 1) p' s s' := by
  have ticks := h.ticks
  rw [List.count_cons_self] at ticks
  exact ⟨h.steps, by omega, h.timed⟩

theorem tick_right (h : Ahead e n p p' s (.tick :: s')) : Ahead e n p (p' + 1) s s' := by
  have ticks := h.ticks
  rw [List.count_cons_self] at ticks
  exact ⟨h.steps, by omega, h.timed⟩

theorem steps_tail (h : Ahead e n p p' (.step :: s) (.step :: s')) :
    s.count .step = s'.count .step := by
  have steps := h.steps
  rw [List.count_cons_self, List.count_cons_self] at steps
  omega

theorem timed_tail (h : Ahead e n p p' (.step :: s) (.step :: s')) (k : Nat)
    (timer : (timerSteps (e.afterTicks p).step.2 s)[k]? = some true) :
    (clock (n + p) s)[k]? = (clock (n + p') s')[k]? := h.timed (k + 1) timer

/-- A step at a timer comes behind the same ticks in both. -/
theorem meet (h : Ahead e n p p' (.step :: s) (.step :: s')) (timer : e.atTimer = true) :
    p = p' := by
  have here : (timerSteps (e.afterTicks p) (.step :: s))[0]? = some true :=
    congrArg some ((atTimer_afterTicks e p).trans timer)
  have same : n + p = n + p' := Option.some.inj (h.timed 0 here)
  exact Nat.add_left_cancel same

theorem step_timer (h : Ahead e n p p (.step :: s) (.step :: s')) :
    Ahead (e.afterTicks p).step.2 (n + p) 0 0 s s' := by
  refine ⟨h.steps_tail, ?_, h.timed_tail⟩
  have ticks : p + s.count .tick = p + s'.count .tick := h.ticks
  omega

/-- Another step leaves both as far ahead as they were. -/
theorem step_other (h : Ahead e n p p' (.step :: s) (.step :: s')) (other : e.atTimer = false) :
    Ahead e.step.2 n p p' s s' := by
  refine ⟨h.steps_tail, h.ticks, fun k timer => h.timed_tail k ?_⟩
  rw [afterTicks_step other]
  exact timer

end Ahead

theorem play_of_ahead {e : Emulator} {n p p' : Nat} {s s' : List Beat} (h : Ahead e n p p' s s') :
    (e.afterTicks p).play s = (e.afterTicks p').play s' := by
  -- ticks in front are taken first, so that two steps meet
  induction s generalizing e n p p' s' with
  | nil =>
      induction s' generalizing p' with
      | nil =>
          have same : p = p' := h.ticks
          rw [same]
      | cons b' rest' ih' =>
          cases b' with
          | tick => exact ih' h.tick_right
          | step =>
              have steps := h.steps
              rw [List.count_cons_self] at steps
              cases steps
  | cons b rest ih =>
      cases b with
      | tick => exact ih h.tick_left
      | step =>
          induction s' generalizing p' with
          | nil =>
              have steps := h.steps
              rw [List.count_cons_self] at steps
              cases steps
          | cons b' rest' ih' =>
              cases b' with
              | tick => exact ih' h.tick_right
              | step =>
                  cases timer : e.atTimer with
                  | true =>
                      obtain rfl := h.meet timer
                      have gone : (e.afterTicks p).step.2.play rest =
                          (e.afterTicks p).step.2.play rest' := ih h.step_timer
                      rw [play, play, gone]
                  | false =>
                      have gone := ih (h.step_other timer)
                      rw [play, play, afterTicks_step timer, afterTicks_step timer, gone]

/-- **Instructions and ticks commute.** Where the instruction at the program counter neither reads
nor sets a timer, and also where it fails, a tick before the step and a tick behind it give the same
event and the same emulator. So two schedules of the same steps and ticks in which the steps at
timers are behind the same ticks report the same events and end in the same emulator, wherever all
other ticks are. -/
theorem instructions_and_ticks_commute (e : Emulator) :
    (e.atTimer = false ∨ e.step.1.reason = .fault → e.tick.step = (e.step.1, e.step.2.tick)) ∧
      ∀ s s', SameTimes e s s' → e.play s = e.play s' := by
  constructor
  · rintro (other | failed)
    · exact tick_step other
    · exact tick_step (not_atTimer_of_fault failed)
  · intro s s' same
    have ahead : Ahead e 0 0 0 s s' := ⟨same.steps, congrArg (0 + ·) same.ticks, same.timed⟩
    exact play_of_ahead ahead

/-- Five is stored in the delay timer and read again, and then comes a word without a meaning. -/
def storesAndReads : Emulator :=
  loaded .fault 700 [0x60, 0x05, 0xF0, 0x15, 0x61, 0x01, 0xF2, 0x07, 0x00, 0x00]

theorem storesAndReads_commutes :
    storesAndReads.atTimer = false ∧
      storesAndReads.tick.step = (storesAndReads.step.1, storesAndReads.step.2.tick) ∧
      storesAndReads.play [.step, .tick, .step, .step, .tick, .tick, .step, .step, .tick] =
        storesAndReads.play [.tick, .step, .step, .tick, .tick, .step, .step, .tick, .step] := by
  obtain ⟨one, all⟩ := instructions_and_ticks_commute storesAndReads
  have first : storesAndReads.atTimer = false := by decide +kernel
  have timers : timerSteps storesAndReads
      [.step, .tick, .step, .step, .tick, .tick, .step, .step, .tick] =
        [false, true, false, true, false] := by decide +kernel
  refine ⟨first, one (Or.inl first), all _ _ ⟨by decide, by decide, ?_⟩⟩
  rw [timers]
  -- the second and the fourth step are at a timer, behind one tick and behind three
  rintro (_ | _ | _ | _ | _ | k) timer <;> first | rfl | cases timer

end Chip8.Emulator
