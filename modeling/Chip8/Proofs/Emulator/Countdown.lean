import Chip8.Proofs.Emulator.Calls
import Chip8.Proofs.Machine.Footprint

/-!
# Timers count ticks

Whatever a call does, it does it by moves: steps, ticks, and a few more that have to do neither with
the timers nor with the count of ticks. Calls have a history of moves, which is read off the loops
(`history`), and making these moves is all there is to the calls. Of all moves only a tick counts a
timer down, and only one operation sets it. So at any time a timer shows what was stored in it
last, less the ticks that were counted since (`Shows`), and no schedule of instructions, waits,
faults and frames that end early makes a difference.
-/

namespace Chip8

open Chip8.Debug

/-- The two timers. -/
inductive Countdown
  | delay
  | sound
  deriving DecidableEq, Repr

namespace Countdown

def value (c : Countdown) (m : Machine) : Int :=
  match c with
  | delay => m.timers.delay
  | sound => m.timers.sound.toNat

/-- The operation that sets a timer. -/
def setter : Countdown → Op
  | delay => .setDelay
  | sound => .setSound

end Countdown

namespace Machine

variable {m m' : Machine} {i : Instruction} {c : Countdown}

theorem value_of_timers (h : m'.timers = m.timers) : c.value m' = c.value m := by
  cases c with
  | delay => exact congrArg Timers.delay h
  | sound => exact congrArg (fun t => (t.sound.toNat : Int)) h

theorem value_effect_setter (h : i.op = c.setter) :
    (m.effect i).2 = .ok () ∧ c.value (m.effect i).1 = (m.v.get i.x).toNat := by
  cases c with
  | delay =>
      rw [effect, h]
      refine ⟨rfl, ?_⟩
      show ((m.v.get i.x).toNat : Int) % 256 = (m.v.get i.x).toNat
      have := (m.v.get i.x).toNat_lt
      omega
  | sound =>
      rw [effect, h]
      refine ⟨rfl, ?_⟩
      show ((Timers.tell _ _).sound.toNat : Int) = (m.v.get i.x).toNat
      rw [Timers.tell_sound]
      have kept := toNat_byteOf (m.v.get i.x).toNat
      have := (m.v.get i.x).toNat_lt
      show ((byteOf (m.v.get i.x).toNat).toNat : Int) = (m.v.get i.x).toNat
      omega

theorem value_effect_other (h : i.op ≠ c.setter) : c.value (m.effect i).1 = c.value m := by
  by_cases delay : i.op = .setDelay
  · cases c with
    | delay => exact absurd delay h
    | sound =>
        rw [effect, delay]
        rfl
  · by_cases sound : i.op = .setSound
    · cases c with
      | delay =>
          rw [effect, sound]
          exact Timers.tell_delay _ _
      | sound => exact absurd sound h
    · exact value_of_timers ((effect_footprint m i).timers delay sound)

theorem value_tick (h : 0 ≤ c.value m) : c.value m.tick = max 0 (c.value m - 1) := by
  cases c with
  | delay =>
      have nonneg : 0 ≤ m.timers.delay := h
      show (Timers.tell _ _).delay = max 0 (m.timers.delay - 1)
      rw [Timers.tell_delay]
      dsimp only
      split <;> omega
  | sound =>
      show ((Timers.tell _ _).sound.toNat : Int) = max 0 ((m.timers.sound.toNat : Int) - 1)
      rw [Timers.tell_sound]
      dsimp only
      split
      · rename_i silent
        rw [silent]
        rfl
      · rename_i on
        -- the sound timer is a byte: it must not be zero for the difference to be that of numbers
        have pos : m.timers.sound.toNat ≠ 0 := fun zero => on (UInt8.toNat_inj.mp zero)
        have one : (1 : UInt8) ≤ m.timers.sound := by
          rw [UInt8.le_iff_toNat_le]
          exact Nat.one_le_iff_ne_zero.mpr pos
        rw [UInt8.toNat_sub_of_le _ _ one]
        show ((m.timers.sound.toNat - 1 : Nat) : Int) = _
        omega

end Machine

namespace Emulator

variable {e : Emulator} {c : Countdown}

/-! ## Moves -/

/-- What calls are made up of. -/
inductive Move
  | step
  | tick
  | skip
  | setKey (key : Fin 16) (down : Bool)
  | setCells (cells : Cells)
  /-- The debugger takes something down. -/
  | note (d : Debugger)
  /-- A frame puts aside what is owed later. -/
  | owe (credit : Nat)

def move (e : Emulator) : Move → Emulator
  | .step => e.step.2
  | .tick => e.tick
  | .skip => e.skipInstruction
  | .setKey key down =>
    e.withMachine { e.machine with keypad := e.machine.keypad.setKey key down }
  | .setCells cells =>
    e.withMachine { e.machine with memory := { e.machine.memory with cells := cells } }
  | .note d => { e with debugger := d }
  | .owe credit => { e with credit := credit }

def afterMoves (e : Emulator) (ms : List Move) : Emulator := ms.foldl move e

/-- The moves of a run that has executed some instructions and has `left` to go. -/
def runMoves (e : Emulator) (stopOnKeyWait : Bool) (executed : Nat) : Nat → List Move
  | 0 => []
  | left + 1 =>
    .note e.checked.debugger ::
      match e.stopBefore executed with
      | some event => [.note (e.checked.stopped event executed).2.debugger]
      | none =>
        .step ::
          if e.checked.step.1.reason = .fault then
            [.note (e.checked.step.2.stopped e.checked.step.1 executed).2.debugger]
          else if e.checked.step.1.reason = .keyWait ∧ stopOnKeyWait then []
          else e.checked.step.2.runMoves stopOnKeyWait (executed + 1) left

/-- The moves of a frame; without the tick if the frame ends early. -/
def frameMoves (e : Emulator) : List Move :=
  .owe e.frameStart.credit :: e.frameStart.runMoves false 0 e.owed ++
    if e.frameRun.1.reason ≠ .maxSteps then [] else [.tick]

/-- The moves of frames up to the first that ends early. -/
def framesMoves (e : Emulator) (executed : Nat) : Nat → List Move
  | 0 => []
  | frames + 1 =>
    e.frameMoves ++
      if e.runFrame.1.reason ≠ .step then
        [.note (e.runFrame.2.stopped e.runFrame.1 (executed + e.runFrame.1.cycles)).2.debugger]
      else e.runFrame.2.framesMoves (executed + e.runFrame.1.cycles) frames

def callMoves (e : Emulator) : Call → List Move
  | .step => [.step]
  | .tick => [.tick]
  | .skip => [.skip]
  | .press key => (key.resolve.toOption.map (Move.setKey · true)).toList
  | .release key => (key.resolve.toOption.map (Move.setKey · false)).toList
  | .write address value =>
    let written := e.machine.memory.write address (byteOf value)
    (written.toOption.map fun memory => Move.setCells memory.cells).toList
  | .run limit => e.runMoves true 0 limit.toNat
  | .runFrame => e.frameMoves
  | .runFor seconds =>
    match framesIn seconds with
    | .ok frames => e.framesMoves 0 frames.toNat
    | .error _ => []

/-- All moves of calls one after the other, in the order in which they are made. -/
def history : Emulator → List Call → List Move
  | _, [] => []
  | e, call :: rest => e.callMoves call ++ history (e.after call.action) rest

theorem afterMoves_cons (e : Emulator) (a : Move) (ms : List Move) :
    e.afterMoves (a :: ms) = (e.move a).afterMoves ms := rfl

theorem afterMoves_append (e : Emulator) (ms ms' : List Move) :
    e.afterMoves (ms ++ ms') = (e.afterMoves ms).afterMoves ms' := List.foldl_append

theorem afterMoves_runMoves (e : Emulator) (limit : Int) (stopOnKeyWait : Bool)
    (executed left : Nat) :
    e.afterMoves (e.runMoves stopOnKeyWait executed left) =
      (e.runOn limit stopOnKeyWait executed left).2 := by
  induction left generalizing e executed with
  | zero => rfl
  | succ left ih =>
      have looked : e.move (.note e.checked.debugger) = e.checked := rfl
      rw [runMoves, runOn_succ, afterMoves_cons, looked]
      cases e.stopBefore executed with
      | some event => rfl
      | none =>
          dsimp only
          rw [afterMoves_cons, show e.checked.move .step = e.checked.step.2 from rfl]
          split
          · rfl
          · split
            · rfl
            · exact ih e.checked.step.2 (executed + 1)

theorem afterMoves_frameMoves (e : Emulator) : e.afterMoves e.frameMoves = e.runFrame.2 := by
  have paid : e.move (.owe e.frameStart.credit) = e.frameStart := rfl
  have ran : e.frameStart.afterMoves (e.frameStart.runMoves false 0 e.owed) = e.frameRun.2 :=
    afterMoves_runMoves e.frameStart e.owed false 0 e.owed
  rw [frameMoves, List.cons_append, afterMoves_cons, paid, afterMoves_append, ran, runFrame_eq]
  split
  · rfl
  · rfl

theorem afterMoves_framesMoves (e : Emulator) (executed frames : Nat) :
    e.afterMoves (e.framesMoves executed frames) = (e.runFramesOn executed frames).2 := by
  induction frames generalizing e executed with
  | zero => rfl
  | succ frames ih =>
      rw [framesMoves, runFramesOn, afterMoves_append, afterMoves_frameMoves]
      dsimp only
      split
      · rfl
      · exact ih e.runFrame.2 _

theorem afterMoves_callMoves (e : Emulator) (call : Call) :
    e.afterMoves (e.callMoves call) = e.after call.action := by
  cases call with
  | step | tick | skip => rfl
  | press key =>
      rw [callMoves, Call.action, after, press_eq]
      cases key.resolve <;> rfl
  | release key =>
      rw [callMoves, Call.action, after, release_eq]
      cases key.resolve <;> rfl
  | write address value =>
      rw [callMoves, Call.action, after, Memory.write]
      cases e.machine.memory.policy.resolve address <;> rfl
  | run limit => exact afterMoves_runMoves e limit true 0 limit.toNat
  | runFrame => exact afterMoves_frameMoves e
  | runFor seconds =>
      rw [callMoves, Call.action, after, runFor]
      cases framesIn seconds with
      | error _ => rfl
      | ok frames => exact afterMoves_framesMoves e 0 frames.toNat

theorem afterMoves_history (e : Emulator) (calls : List Call) :
    e.afterMoves (e.history calls) = e.afterCalls calls := by
  induction calls generalizing e with
  | nil => rfl
  | cons call rest ih =>
      rw [history, afterMoves_append, afterMoves_callMoves, ih]
      rfl

/-! ## What is stored -/

/-- What a step stores in a timer, if it executes the operation that sets it. -/
def stored (c : Countdown) (e : Emulator) : Option UInt8 :=
  match e.machine.step.2 with
  | .ok i => if i.op = c.setter then some (e.machine.v.get i.x) else none
  | .error _ => none

/-- The value stored in a timer last, and the count of ticks at that time. As long as nothing is
stored they are the given ones. -/
def lastStored (c : Countdown) : Emulator → Int × Nat → List Move → Int × Nat
  | _, last, [] => last
  | e, last, .step :: rest =>
    lastStored c e.step.2 (((stored c e).map fun b => ((b.toNat : Int), e.totalTicks)).getD last) rest
  | e, last, a :: rest => lastStored c (e.move a) last rest

/-- A timer shows what it held when so many ticks were counted, less the ticks since, and never
less than nothing. -/
structure Shows (c : Countdown) (last : Int × Nat) (e : Emulator) : Prop where
  since : last.2 ≤ e.totalTicks
  value : c.value e.machine = max 0 (last.1 - (e.totalTicks - last.2 : Nat))

theorem step_totalTicks (e : Emulator) : e.step.2.totalTicks = e.totalTicks := by
  rcases h : e.machine.step with ⟨m, f | i⟩
  · rw [step_of_error h]
  · rw [step_of_ok h]

theorem value_step (e : Emulator) :
    c.value e.step.2.machine =
      ((stored c e).map fun b => (b.toNat : Int)).getD (c.value e.machine) := by
  rw [step_machine, stored]
  rcases h : e.machine.step with ⟨m, f | i⟩
  · have timers : m.timers = e.machine.timers := by rw [Machine.step_error_unchanged h]
    exact Machine.value_of_timers timers
  · obtain ⟨r, -, executed, rfl⟩ := Machine.executed_of_step h
    have value : c.value { r with lastInstruction := some i } =
        c.value (e.machine.begun.effect i).1 := by
      rw [executed]
      exact Machine.value_of_timers rfl
    dsimp only
    rw [value]
    by_cases sets : i.op = c.setter
    · rw [if_pos sets]
      exact (Machine.value_effect_setter sets).2
    · rw [if_neg sets, Machine.value_effect_other sets]
      exact Machine.value_of_timers rfl

theorem Shows.start (r : Reachable e) (c : Countdown) :
    Shows c (c.value e.machine, e.totalTicks) e := by
  refine ⟨Nat.le_refl _, ?_⟩
  have nonneg : 0 ≤ c.value e.machine := by
    cases c with
    | delay => exact r.inRange.delay.1
    | sound => exact Int.natCast_nonneg _
  dsimp only
  omega

theorem Shows.of_eq {e' : Emulator} {last : Int × Nat} (h : Shows c last e)
    (timers : e'.machine.timers = e.machine.timers) (ticks : e'.totalTicks = e.totalTicks) :
    Shows c last e' := by
  refine ⟨ticks ▸ h.since, ?_⟩
  rw [Machine.value_of_timers timers, ticks]
  exact h.value

theorem Shows.tick {last : Int × Nat} (h : Shows c last e) : Shows c last e.tick := by
  have since := h.since
  have value := h.value
  have ticked : c.value e.tick.machine = max 0 (c.value e.machine - 1) :=
    Machine.value_tick (by omega)
  refine ⟨Nat.le_succ_of_le since, ?_⟩
  rw [ticked, show e.tick.totalTicks = e.totalTicks + 1 from rfl]
  omega

theorem Shows.step {last : Int × Nat} (h : Shows c last e) :
    Shows c (((stored c e).map fun b => ((b.toNat : Int), e.totalTicks)).getD last) e.step.2 := by
  have ticks := step_totalTicks e
  have value := value_step (c := c) e
  cases set : stored c e with
  | none =>
      rw [set] at value
      exact ⟨ticks ▸ h.since, by rw [value, ticks]; exact h.value⟩
  | some b =>
      rw [set] at value
      refine ⟨Nat.le_of_eq ticks.symm, ?_⟩
      rw [value, ticks]
      show (b.toNat : Int) = max 0 ((b.toNat : Int) - (e.totalTicks - e.totalTicks : Nat))
      omega

theorem shows_afterMoves {last : Int × Nat} (h : Shows c last e) (ms : List Move) :
    Shows c (lastStored c e last ms) (e.afterMoves ms) := by
  induction ms generalizing e last with
  | nil => exact h
  | cons a rest ih =>
      -- what was stored last is general in the induction, since a step may replace it
      cases a with
      | step => exact ih h.step
      | tick => exact ih h.tick
      | skip | setKey | setCells | note | owe => exact ih (h.of_eq rfl rfl)

/-- **Timers count ticks.** Calls make the moves of their history. At their end each timer holds
what was stored in it last by the operation that sets it, or what it held at the beginning, less
the ticks that were counted since, and never less than nothing. -/
theorem timers_count_ticks (r : Reachable e) (calls : List Call) :
    e.afterMoves (e.history calls) = e.afterCalls calls ∧
      ∀ c : Countdown,
        Shows c (lastStored c e (c.value e.machine, e.totalTicks) (e.history calls))
          (e.afterCalls calls) := by
  have made := afterMoves_history e calls
  refine ⟨made, ?_⟩
  intro c
  rw [← made]
  exact shows_afterMoves (Shows.start r c) (e.history calls)

/-- Five is stored in the delay timer, and behind the first tick two in the sound timer. -/
def timed : Emulator :=
  loaded .wrap 120 [0x60, 0x05, 0xF0, 0x15, 0x61, 0x02, 0xF1, 0x18, 0x12, 0x08]

def timedCalls : List Call := [.runFrame, .step, .step, .tick, .run 3, .skip, .runFrame, .tick]

theorem timed_counts :
    (timed.afterCalls timedCalls).totalTicks = 3 ∧
      Countdown.delay.value (timed.afterCalls timedCalls).machine = 5 - 3 ∧
      Countdown.sound.value (timed.afterCalls timedCalls).machine = max 0 (2 - 2) := by
  have reachable : Reachable timed := reachable_loaded (by decide) (by decide)
  obtain ⟨-, counted⟩ := timers_count_ticks reachable timedCalls
  have delay := (counted .delay).value
  have sound := (counted .sound).value
  obtain ⟨ticks, five, two⟩ : (timed.afterCalls timedCalls).totalTicks = 3 ∧
      lastStored .delay timed (Countdown.delay.value timed.machine, timed.totalTicks)
        (timed.history timedCalls) = (5, 0) ∧
      lastStored .sound timed (Countdown.sound.value timed.machine, timed.totalTicks)
        (timed.history timedCalls) = (2, 1) := by decide +kernel
  rw [five, ticks] at delay
  rw [two, ticks] at sound
  exact ⟨ticks, delay, sound⟩

end Emulator

end Chip8
