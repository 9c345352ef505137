import Chip8.Snapshot.Field

/-!
# Timers

Two counters go down by one, sixty times a second, until they are zero. The delay timer can be
read by a program; while the sound timer is not zero, a tone is to be heard. A listener is told
whenever the tone starts or ends. What it was told is kept, the latest first.
-/

namespace Chip8

structure Timers where
  /-- A byte in every emulator that a host can bring about. Only numbers that are handed to the
  timers by themselves, as if a snapshot had held them, put another one here. Those are followed no
  further: reading the timer and saving it take the residue instead of failing, and a condition
  takes zero for a number below zero instead of comparing the number itself. -/
  delay : Int
  sound : UInt8
  listening : Bool
  /-- What the listener was told, the latest first: true for a start, false for an end. -/
  told : List Bool
  deriving DecidableEq, Repr

namespace Timers

def stopped : Timers := ⟨0, 0, false, []⟩

def toneOn (t : Timers) : Bool := t.sound != 0

/-- Tell the listener about the tone if it is not as it was. -/
def tell (t : Timers) (was : Bool) : Timers :=
  if t.listening ∧ was ≠ t.toneOn then { t with told := t.toneOn :: t.told } else t

def setDelay (t : Timers) (value : Int) : Timers := { t with delay := value % 256 }

def setSound (t : Timers) (value : Int) : Timers :=
  { t with sound := byteOf value }.tell t.toneOn

def tick (t : Timers) : Timers :=
  { t with
    delay := if 0 < t.delay then t.delay - 1 else t.delay
    sound := if t.sound = 0 then 0 else t.sound - 1 }.tell t.toneOn

def reset (t : Timers) : Timers := { t with delay := 0, sound := 0 }.tell t.toneOn

def listen (t : Timers) (on : Bool) : Timers := { t with listening := on }

/-! ## Snapshots -/

def saved (t : Timers) : List UInt8 := [byteOf t.delay, t.sound]

/-- Restore the timers saved at an offset, first the delay timer and then the sound timer, and
say how many numbers they take. -/
def restore (t : Timers) (data : List Int) (offset : Int) : Timers × Except Snapshot.Flaw Int :=
  match Snapshot.numberAt data offset with
  | .error e => (t, .error e)
  | .ok delay =>
    let t := { t with delay := delay }
    match Snapshot.numberAt data (offset + 1) with
    | .error e => (t, .error e)
    | .ok sound => (t.setSound sound, .ok 2)

theorem tell_delay (t : Timers) (was : Bool) : (t.tell was).delay = t.delay := by
  unfold tell
  split <;> rfl

theorem tell_sound (t : Timers) (was : Bool) : (t.tell was).sound = t.sound := by
  unfold tell
  split <;> rfl

end Timers

end Chip8
