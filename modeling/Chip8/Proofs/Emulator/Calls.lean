import Chip8.Proofs.Emulator.Snapshots
import Chip8.Proofs.Machine.Alike

/-!
# What a host is answered

A host knows an emulator by the answers to its calls. Two emulators whose machines are alike
answer alike to all calls that ask for no more than one instruction, whatever their debuggers,
counts and programs are (`answer_follows`). Restoring a snapshot makes the machines alike, so it
brings back all that such a host can tell.
-/

namespace Chip8

open Chip8.Debug Chip8.Machine

variable {p p' : Policy}

/-- An event of an access that was refused. -/
def Debug.Event.OfMemory (event : Event) : Prop := ∃ f, event.fault = some f ∧ f.OfMemory

instance (event : Event) : Decidable event.OfMemory :=
  match h : event.fault with
  | none => .isFalse fun ⟨_, h', _⟩ => by rw [h] at h'; cases h'
  | some f => decidable_of_iff f.OfMemory
      ⟨fun memory => ⟨f, h, memory⟩, fun ⟨_, h', memory⟩ => by rw [h] at h'; cases h'; exact memory⟩

/-- What a host asks of an emulator while a program runs. -/
inductive Call
  | step
  | tick
  | skip
  | press (key : Key)
  | release (key : Key)
  | write (address value : Int)
  | run (limit : Int)
  | runFrame
  | runFor (seconds : Float)

inductive Answer
  | done
  | event (e : Event)
  | badKey (e : KeyError)
  | refused (f : Fault)
  | badDuration (e : RoundingError)
  deriving DecidableEq, Repr

namespace Call

def action : Call → Emulator.Action
  | step => .step
  | tick => .tick
  | skip => .skip
  | press key => .press key
  | release key => .release key
  | write address value => .write address value
  | run limit => .run limit
  | runFrame => .runFrame
  | runFor seconds => .runFor seconds

/-- No more than one instruction is asked for. -/
def single : Call → Bool
  | run _ | runFrame | runFor _ => false
  | _ => true

end Call

/-- The answer reports an access that was refused. -/
def Answer.OfMemory : Answer → Prop
  | event e => e.OfMemory
  | refused f => f.OfMemory
  | done | badKey _ | badDuration _ => False

instance (a : Answer) : Decidable a.OfMemory :=
  match a with
  | .event e => inferInstanceAs (Decidable e.OfMemory)
  | .refused f => inferInstanceAs (Decidable f.OfMemory)
  | .done | .badKey _ | .badDuration _ => inferInstanceAs (Decidable False)

/-- What a call returns that succeeds or fails for a reason. -/
def Answer.ofExcept {ε α : Type} (failed : ε → Answer) (succeeded : α → Answer) : Except ε α → Answer
  | .ok a => succeeded a
  | .error e => failed e

namespace Emulator

def answer (e : Emulator) : Call → Answer
  | .step => .event e.step.1
  | .tick | .skip => .done
  | .press key => .ofExcept .badKey (fun _ => .done) (e.press key)
  | .release key => .ofExcept .badKey (fun _ => .done) (e.release key)
  | .write address value =>
    .ofExcept .refused (fun _ => .done) (e.machine.memory.write address (byteOf value))
  | .run limit => .event (e.run limit).1
  | .runFrame => .event e.runFrame.1
  | .runFor seconds => .ofExcept .badDuration (fun o => .event o.1) (e.runFor seconds)

/-- The answers to calls one after the other. -/
def answers : Emulator → List Call → List Answer
  | _, [] => []
  | e, c :: rest => e.answer c :: answers (e.after c.action) rest

/-- The emulator after calls one after the other. -/
def afterCalls : Emulator → List Call → Emulator
  | e, [] => e
  | e, c :: rest => afterCalls (e.after c.action) rest

variable {e e' : Emulator}

/-! ## Calls for one instruction at most -/

theorem step_follows (w : p.Within p') (h : Alike p p' e.machine e'.machine) :
    (e'.step.1 = e.step.1 ∧ Alike p p' e.step.2.machine e'.step.2.machine) ∨
      p ≠ p' ∧ e.step.1.OfMemory := by
  rw [step_machine, step_machine, step_event, step_event]
  rcases h.step w with ⟨answer, alike, waiting⟩ | ⟨other, f, failed, memory⟩
  · left
    refine ⟨?_, alike⟩
    rw [answer, h.pc]
    cases went : e.machine.step.2 with
    | error f => rfl
    | ok i =>
        dsimp only
        rw [waiting i went]
  · right
    rw [failed]
    exact ⟨other, f, rfl, memory⟩

theorem press_eq (e : Emulator) (key : Key) :
    e.press key = key.resolve.map fun k => e.withMachine (e.machine.press k) := by
  unfold Emulator.press
  cases key.resolve <;> rfl

theorem release_eq (e : Emulator) (key : Key) :
    e.release key = key.resolve.map fun k => e.withMachine (e.machine.release k) := by
  unfold Emulator.release
  cases key.resolve <;> rfl

theorem answer_follows (w : p.Within p') (h : Alike p p' e.machine e'.machine) {c : Call}
    (single : c.single) :
    (e'.answer c = e.answer c ∧
        Alike p p' (e.after c.action).machine (e'.after c.action).machine) ∨
      p ≠ p' ∧ (e.answer c).OfMemory := by
  cases c with
  | step =>
      rcases step_follows w h with ⟨same, after⟩ | refused
      · exact Or.inl ⟨congrArg Answer.event same, after⟩
      · exact Or.inr refused
  | tick => exact Or.inl ⟨rfl, h.tick⟩
  | skip => exact Or.inl ⟨rfl, h.skip⟩
  | press key =>
      left
      rw [answer, answer, Call.action, Emulator.after, Emulator.after, press_eq, press_eq]
      cases key.resolve with
      | error err => exact ⟨rfl, h⟩
      | ok key => exact ⟨rfl, h.setKey key true⟩
  | release key =>
      left
      rw [answer, answer, Call.action, Emulator.after, Emulator.after, release_eq, release_eq]
      cases key.resolve with
      | error err => exact ⟨rfl, h⟩
      | ok key => exact ⟨rfl, h.setKey key false⟩
  | write address value =>
      have here : e.machine.memory = ⟨p, e.machine.memory.cells⟩ := by rw [← h.policy]
      have there : e'.machine.memory = ⟨p', e.machine.memory.cells⟩ := by rw [← h.policy', h.cells]
      rw [answer, answer, Call.action, Emulator.after, Emulator.after, here, there]
      rcases Memory.write_follows w e.machine.memory.cells address (byteOf value) with
        ⟨cells, written, written'⟩ | ⟨f, refused, memory, same | other⟩
      · left
        rw [written, written']
        exact ⟨rfl, h.setCells cells⟩
      · left
        rw [refused, same]
        exact ⟨rfl, h⟩
      · right
        rw [refused]
        exact ⟨other, memory⟩
  | run | runFrame | runFor => cases single

/-- **Calls for one instruction at most are answered alike.** -/
theorem answers_of_alike (h : Alike p p e.machine e'.machine) {calls : List Call}
    (single : ∀ c ∈ calls, c.single) :
    e'.answers calls = e.answers calls ∧
      Alike p p (e.afterCalls calls).machine (e'.afterCalls calls).machine := by
  induction calls generalizing e e' with
  | nil => exact ⟨rfl, h⟩
  | cons c rest ih =>
      have first := single c List.mem_cons_self
      have others : ∀ c ∈ rest, c.single := fun c hc => single c (List.mem_cons_of_mem _ hc)
      rcases answer_follows (Or.inl rfl) h first with ⟨same, after⟩ | ⟨other, -⟩
      · obtain ⟨sames, afters⟩ := ih after others
        refine ⟨?_, afters⟩
        rw [answers, answers, same, sames]
      · exact absurd rfl other

/-! ## Behind a restored snapshot -/

theorem alike_of_restored {m s t : Machine} (same : SameState m s) (o : Overwritten t m)
    (dialect : t.dialect = s.dialect) (policy : t.memory.policy = s.memory.policy)
    (keypad : t.keypad = s.keypad) (random : t.random.SameBytes s.random) :
    Alike s.memory.policy s.memory.policy s m := by
  obtain ⟨_, _, _, _, _, _, _, _, _, _, rfl⟩ := o
  refine ⟨same.symm, dialect.symm, keypad.symm, ?_, rfl, policy⟩
  intro count
  exact (random count).symm

/-- **A restored emulator goes on like the saved one.** Restoring the snapshot succeeds. From then
on every call for one instruction at most is answered alike and leaves both machines in the same
state, whatever was not saved: the key wait, the last instruction, counts, program, debugger. -/
theorem restored_goes_on_like_saved {s t : Emulator} (r : Reachable s)
    (dialect : t.machine.dialect = s.machine.dialect)
    (policy : t.machine.memory.policy = s.machine.memory.policy)
    (keypad : t.machine.keypad = s.machine.keypad)
    (random : t.machine.random.SameBytes s.machine.random) :
    (t.restore s.snapshot).2 = .ok () ∧
      ∀ calls : List Call, (∀ c ∈ calls, c.single) →
        (t.restore s.snapshot).1.answers calls = s.answers calls ∧
          ((t.restore s.snapshot).1.afterCalls calls).machine.SameState
            (s.afterCalls calls).machine := by
  obtain ⟨m, restored, -, -, same⟩ := r.inRange.round_trip t.machine
  have here : t.restore s.snapshot = (t.withMachine m, .ok ()) := by
    rw [restore, snapshot, restored]
  have overwritten : Overwritten t.machine m := by
    have any := restore_overwrites t.machine s.machine.snapshot
    rwa [restored] at any
  have alike : Alike _ _ s.machine (t.withMachine m).machine :=
    alike_of_restored same overwritten dialect policy keypad random
  rw [here]
  refine ⟨rfl, ?_⟩
  intro calls single
  obtain ⟨answers, after⟩ := answers_of_alike alike single
  exact ⟨answers, after.toSameState.symm⟩

/-- A program that waits for a key inside a routine, with a breakpoint on the next instruction. -/
def waitingInside : Emulator :=
  (((loaded .fault 700 [0x22, 0x04, 0x00, 0x00, 0xF0, 0x0A]).after .step).after .step).after
    (.debug (.addBreakpoint 0x206))

/-- An emulator with another program in it and nothing to stop for. -/
def reloaded (e : Emulator) : Emulator :=
  (e.after (.load [0x00, 0xE0])).after (.debug .clearAll)

theorem reloaded_frame (e : Emulator) :
    (reloaded e).machine.dialect = e.machine.dialect ∧
      (reloaded e).machine.memory.policy = e.machine.memory.policy ∧
        (reloaded e).machine.random = e.machine.random := ⟨rfl, rfl, rfl⟩

theorem waitingInside_restored :
    waitingInside.machine.waitingForKey ∧
      ((reloaded waitingInside).restore waitingInside.snapshot).2 = .ok () ∧
      ((reloaded waitingInside).restore waitingInside.snapshot).1.answers
          [.step, .tick, .press (.number 5), .step, .write 0x300 7, .write 0x1000 7, .skip] =
        waitingInside.answers
          [.step, .tick, .press (.number 5), .step, .write 0x300 7, .write 0x1000 7, .skip] := by
  have reachable : Reachable waitingInside :=
    (((reachable_loaded (by decide) (by decide)).after .step).after .step).after
      (.debug (.addBreakpoint 0x206))
  have waiting : waitingInside.machine.waitingForKey := by decide +kernel
  have keypad : (reloaded waitingInside).machine.keypad = waitingInside.machine.keypad := by
    decide +kernel
  obtain ⟨dialect, policy, random⟩ := reloaded_frame waitingInside
  obtain ⟨ok, alike⟩ := restored_goes_on_like_saved reachable dialect policy keypad
    fun count => congrArg (Random.Source.take count) random
  exact ⟨waiting, ok, (alike _ (by decide)).1⟩

end Emulator

end Chip8
