import Chip8.Debug.Debugger
import Chip8.Machine.Execute

/-!
# The emulator

An emulator is a machine with what its host needs to work with it: the program that a reset loads
again, the pace of the instructions, counters, and a debugger. Errors of an instruction never get
lost and never end the emulator; they come back as events.

The machine has two clocks. Instructions go at the frequency of the emulator, timers at sixty
ticks a second. What a frame of one sixtieth of a second owes in instructions is counted in
sixtieths of an instruction, so nothing is lost between frames.
-/

namespace Chip8

open Chip8.Text Chip8.Debug

structure Emulator where
  machine : Machine
  /-- Instructions in a second. -/
  frequency : Nat
  program : List UInt8
  debugger : Debugger
  totalSteps : Nat
  totalTicks : Nat
  /-- What is owed to the next frame, in sixtieths of an instruction. -/
  credit : Nat
  tracing : Bool
  /-- Address and word of the fetched instructions, the latest first. -/
  trace : List (UInt16 × UInt16)

/-! ## Configurations -/

inductive RandomChoice
  /-- The given numbers, as bytes, over and over. -/
  | bytes (values : List Int)
  | seed (seed : Int)
  deriving DecidableEq, Repr

inductive DialectChoice
  | named (name : String)
  | custom (dialect : Dialect)
  deriving DecidableEq, Repr

structure Config where
  random : RandomChoice
  frequency : Int
  dialect : DialectChoice
  policy : Policy
  deriving DecidableEq, Repr

inductive ConfigError
  | random (e : Random.Source.EmptyLoop)
  | frequency (given : Int)
  | dialect (e : Dialect.UnknownName)
  deriving DecidableEq, Repr

def ConfigError.message : ConfigError → String
  | random e => e.message
  | frequency given => s!"frequency must be positive, got {given}"
  | dialect e => e.message

def RandomChoice.source : RandomChoice → Except ConfigError Random.Source
  | bytes values => (Random.Source.ofList values).mapError .random
  | seed n => .ok (.ofSeed n)

def DialectChoice.dialect : DialectChoice → Except ConfigError Dialect
  | named name => (Dialect.ofName name).mapError .dialect
  | custom d => .ok d

namespace Emulator

def ofMachine (machine : Machine) (frequency : Nat) : Emulator where
  machine := machine
  frequency := frequency
  program := []
  debugger := .idle
  totalSteps := 0
  totalTicks := 0
  credit := 0
  tracing := false
  trace := []

/-- A new emulator. The source of random bytes is looked at first, then the frequency and then the
dialect. -/
def ofConfig (c : Config) : Except ConfigError Emulator := do
  let random ← c.random.source
  if c.frequency ≤ 0 then throw (.frequency c.frequency)
  let dialect ← c.dialect.dialect
  return ofMachine (.fresh dialect c.policy random) c.frequency.toNat

/-! ## Programs -/

/-- The machine as it was switched on with the current program. Breakpoints, conditions and the
last event stay. -/
def reset (e : Emulator) : Emulator :=
  { e with
    machine := e.machine.reset e.program
    debugger := e.debugger.clearBreakRequest
    totalSteps := 0
    totalTicks := 0
    credit := 0 }

/-- Load a program and reset. A program that is too large changes nothing. -/
def loadProgram (e : Emulator) (program : List UInt8) : Except LoadError Emulator :=
  if program.length ≤ maxProgramSize then .ok { e with program := program }.reset
  else .error (.tooLarge program.length)

/-! ## Single steps -/

def withMachine (e : Emulator) (m : Machine) : Emulator := { e with machine := m }

/-- Keep the instruction at the program counter if it can be fetched and someone wants to know. -/
def traceFetch (e : Emulator) : Emulator :=
  match e.tracing, e.machine.fetch with
  | true, .ok w => { e with trace := (e.machine.pc, w) :: e.trace }
  | _, _ => e

def faultEvent (f : Fault) : Event := ⟨.fault, f.address, f.word, 0, some f, f.text⟩

def stepEvent (pc : UInt16) (i : Instruction) (waiting : Bool) : Event :=
  if waiting then
    ⟨.keyWait, some pc.toNat, some i.word.toNat, 1, none, s!"Waiting for key at ${hexWord pc}"⟩
  else ⟨.step, some pc.toNat, some i.word.toNat, 1, none, ""⟩

/-- Execute one instruction. A fault is remembered by the debugger. -/
def step (e : Emulator) : Event × Emulator :=
  let e := e.traceFetch
  match e.machine.step with
  | (m, .ok i) =>
    (stepEvent e.machine.pc i m.waitingForKey,
      { e with machine := m, totalSteps := e.totalSteps + 1 })
  | (m, .error f) =>
    (faultEvent f, { e with machine := m, debugger := e.debugger.record (faultEvent f) })

/-- Step the machine alone: nothing is counted and no event is made. -/
def stepMachine (e : Emulator) : Emulator × Except Fault Instruction :=
  let e := e.traceFetch
  let (m, r) := e.machine.step
  (e.withMachine m, r)

def skipInstruction (e : Emulator) : Emulator := e.withMachine e.machine.skipInstruction

def tick (e : Emulator) : Emulator :=
  { e with machine := e.machine.tick, totalTicks := e.totalTicks + 1 }

/-! ## What the host does and sees -/

def press (e : Emulator) (key : Key) : Except KeyError Emulator := do
  return e.withMachine (e.machine.press (← key.resolve))

def release (e : Emulator) (key : Key) : Except KeyError Emulator := do
  return e.withMachine (e.machine.release (← key.resolve))

def registers (e : Emulator) : List (String × Int) :=
  let m := e.machine
  let others : List (String × Int) :=
    [("i", m.index.toNat), ("pc", m.pc.toNat), ("sp", m.stack.length), ("delay", m.timers.delay),
     ("sound", m.timers.sound.toNat)]
  (List.finRange 16).map (fun r => ((Register.v r).name, ((m.v.get r).toNat : Int))) ++ others

structure RegisterReadError where
  value : Int
  deriving DecidableEq, Repr

def RegisterReadError.message (_ : RegisterReadError) : String :=
  "byte must be in range(0, 256)"

/-- Set a register. Byte registers take bytes only; of all other numbers the residue is kept. The
stack pointer cannot be set. -/
def setRegister (e : Emulator) (r : Register) (value : Int) :
    Except RegisterReadError Emulator :=
  let m := e.machine
  match r with
  | .v r =>
    if 0 ≤ value ∧ value < 256 then .ok (e.withMachine (m.setV r (byteOf value)))
    else .error ⟨value⟩
  | .index => .ok (e.withMachine (m.setIndex (wordOf value)))
  | .pc => .ok (e.withMachine (m.setPC (wordOf value)))
  | .delay => .ok (e.withMachine { m with timers := m.timers.setDelay value })
  | .sound => .ok (e.withMachine { m with timers := m.timers.setSound value })
  | .stackPointer => .ok e

def text (e : Emulator) : String :=
  let m := e.machine
  s!"Emulator(quirks={m.dialect.name}, pc=${hexWord m.pc}, steps={e.totalSteps})"

end Emulator

end Chip8
