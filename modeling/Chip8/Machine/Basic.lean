import Chip8.Dialect
import Chip8.Instruction.Basic
import Chip8.Keypad
import Chip8.Memory
import Chip8.Random
import Chip8.Screen.Sprite
import Chip8.Timers

/-!
# The machine

The state of the machine is its registers, its return stack and everything they work on: memory,
screen, keypad, timers and the source of random bytes. The last of the sixteen byte registers
doubles as the flag.

The return stack is kept with the latest address first. Its entries are addresses; they are
integers here because a host can put other numbers there, and only the residue modulo 65536 is
ever jumped to.
-/

namespace Chip8

def stackDepth : Nat := 16

structure Machine where
  dialect : Dialect
  v : Vector UInt8 16
  index : UInt16
  pc : UInt16
  /-- Return addresses, the latest first. -/
  stack : List Int
  /-- Whether the last instruction waited for a key and found none down. -/
  waitingForKey : Bool
  lastInstruction : Option Instruction
  memory : Memory
  screen : Screen 64 32
  keypad : Keypad
  timers : Timers
  random : Random.Source

namespace Machine

def flag : Fin 16 := ⟨15, by omega⟩

/-- The register that a jump adds to its address in some dialects. -/
def first : Fin 16 := ⟨0, by omega⟩

def fresh (dialect : Dialect) (policy : Policy) (random : Random.Source) : Machine where
  dialect := dialect
  v := Vector.replicate 16 0
  index := 0
  pc := UInt16.ofNat programStart
  stack := []
  waitingForKey := false
  lastInstruction := none
  memory := .fresh policy
  screen := .blank 64 32
  keypad := .released
  timers := .stopped
  random := random

/-- Registers and stack as in a fresh machine. All else stays. -/
def resetRegisters (m : Machine) : Machine :=
  { m with
    v := Vector.replicate 16 0
    index := 0
    pc := UInt16.ofNat programStart
    stack := []
    waitingForKey := false
    lastInstruction := none }

/-- Everything as in a fresh machine with the given program, which has to fit. The source of
random bytes goes on where it is, and whoever listens for the tone still does. -/
def reset (m : Machine) (program : List UInt8) : Machine :=
  { m.resetRegisters with
    memory := { m.memory.reset with cells := Cells.fresh.place programStart program }
    screen := m.screen.clear
    timers := m.timers.reset
    keypad := .released }

/-! ## Setting registers -/

def setV (m : Machine) (r : Fin 16) (b : UInt8) : Machine := { m with v := Table.put m.v r b }

def setFlag (m : Machine) (on : Bool) : Machine := m.setV flag (if on then 1 else 0)

def setIndex (m : Machine) (w : UInt16) : Machine := { m with index := w }

def setPC (m : Machine) (w : UInt16) : Machine := { m with pc := w }

def skipIf (m : Machine) (condition : Bool) : Machine :=
  if condition then { m with pc := m.pc + 2 } else m

def fetch (m : Machine) : Except Fault UInt16 := m.memory.readWord m.pc.toNat

def skipInstruction (m : Machine) : Machine := { m with pc := m.pc + 2 }

/-! ## The outside world -/

def press (m : Machine) (key : Fin 16) : Machine := { m with keypad := m.keypad.setKey key true }

def release (m : Machine) (key : Fin 16) : Machine := { m with keypad := m.keypad.setKey key false }

def tick (m : Machine) : Machine := { m with timers := m.timers.tick }

end Machine

end Chip8
