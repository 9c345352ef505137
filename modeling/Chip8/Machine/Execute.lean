import Chip8.Machine.Basic

/-!
# Executing an instruction

Every operation has an effect on the machine or is refused with a fault. A refused instruction has
no effect: operations that touch several bytes of memory check all of them first. The program
counter already points behind the instruction when it is executed.

Results are written before the flag, so an instruction whose target is the flag register leaves
the flag there and not the result.

A step fetches the word at the program counter, moves the program counter behind it and executes
it. When that fails, the program counter is back on the instruction, and the fault carries its
address and its word, as far as they are known: a fetch that fails has no word.
-/

namespace Chip8.Machine

/-! ## Outcomes -/

/-- A machine, and whether the instruction was executed on it. What a refused instruction changed
before it was refused stays changed. -/
abbrev Outcome := Machine × Except Fault Unit

def done (m : Machine) : Outcome := (m, .ok ())

def refused (m : Machine) (f : Fault) : Outcome := (m, .error f)

def Outcome.andThen (r : Outcome) (next : Machine → Machine) : Outcome :=
  match r with
  | (m, .ok ()) => (next m).done
  | (m, .error f) => m.refused f

/-! ## Blocks of memory -/

/-- Write bytes at the index, once all of their places are checked. -/
def storeBlock (m : Machine) (bytes : List UInt8) : Outcome :=
  match m.memory.policy.check m.index.toNat bytes.length with
  | .error f => m.refused f
  | .ok () =>
    let (memory, r) := m.memory.writeBytes m.index.toNat bytes
    ({ m with memory := memory }, r)

def loadBlock (m : Machine) (count : Nat) : Except Fault (List UInt8) := do
  m.memory.policy.check m.index.toNat count
  m.memory.readBytes m.index.toNat count

def passBlock (m : Machine) (count : Nat) : Machine :=
  if m.dialect.movesIndex then m.setIndex (m.index + UInt16.ofNat count) else m

/-- The first registers, as many as there are bytes. -/
def setRegisters (m : Machine) (bytes : List UInt8) : Machine :=
  { m with v := Vector.ofFn fun r => bytes.getD r (m.v.get r) }

def decimalDigits (b : UInt8) : List UInt8 := [b / 100, b / 10 % 10, b % 10]

/-! ## Groups of operations -/

def call (m : Machine) (address : UInt16) : Outcome :=
  if stackDepth ≤ m.stack.length then m.refused (.of (.stackOverflow m.stack.length))
  else done { m with stack := (m.pc.toNat : Int) :: m.stack, pc := address }

def ret (m : Machine) : Outcome :=
  match m.stack with
  | [] => m.refused (.of .stackUnderflow)
  | address :: rest => done { m with stack := rest, pc := wordOf address }

def shiftSource (m : Machine) (i : Instruction) : UInt8 :=
  if m.dialect.shiftsVY then m.v.get i.y else m.v.get i.x

/-- The sum of an address and a register, which may leave the memory. -/
def jumpTarget (m : Machine) (i : Instruction) : UInt16 :=
  i.nnn + (if m.dialect.jumpsByVX then m.v.get i.x else m.v.get first).toUInt16

/-- Add a register to the index. Leaving the memory sets the flag if the dialect says so; the flag
is never cleared. -/
def addToIndex (m : Machine) (b : UInt8) : Machine :=
  let total := m.index.toNat + b.toNat
  let flagged := if m.dialect.flagsIndexOverflow ∧ 0xFFF < total then m.setFlag true else m
  flagged.setIndex (m.index + b.toUInt16)

/-- Wait for a key: with no key down the instruction is to be executed again. -/
def waitKey (m : Machine) (x : Fin 16) : Machine :=
  match m.keypad.first? with
  | none => { m with pc := m.pc - 2, waitingForKey := true }
  | some key => m.setV x (UInt8.ofNat key)

def drawSprite (m : Machine) (i : Instruction) : Outcome :=
  match m.loadBlock i.n with
  | .error f => m.refused f
  | .ok sprite =>
    let (screen, collision) :=
      m.screen.draw (m.v.get i.x).toNat (m.v.get i.y).toNat sprite m.dialect.clipsSprites
    ({ m with screen := screen }.setFlag collision).done

def storeRegisters (m : Machine) (count : Nat) : Outcome :=
  (m.storeBlock (m.v.toList.take count)).andThen (passBlock · count)

def loadRegisters (m : Machine) (count : Nat) : Outcome :=
  match m.loadBlock count with
  | .error f => m.refused f
  | .ok bytes => ((m.setRegisters bytes).passBlock count).done

/-! ## All operations -/

def effect (m : Machine) (i : Instruction) : Outcome :=
  let vx := m.v.get i.x
  let vy := m.v.get i.y
  match i.op with
  | .cls => done { m with screen := m.screen.clear }
  | .ret => m.ret
  | .jp => done (m.setPC i.nnn)
  | .call => m.call i.nnn
  | .jpOffset => done (m.setPC (m.jumpTarget i))
  | .skipEqByte => done (m.skipIf (vx == i.nn))
  | .skipNeByte => done (m.skipIf (vx != i.nn))
  | .skipEqReg => done (m.skipIf (vx == vy))
  | .skipNeReg => done (m.skipIf (vx != vy))
  | .skipKey => done (m.skipIf (m.keypad.isDown vx.toNat))
  | .skipNoKey => done (m.skipIf (!m.keypad.isDown vx.toNat))
  | .ldByte => done (m.setV i.x i.nn)
  | .addByte => done (m.setV i.x (vx + i.nn))
  | .ldReg => done (m.setV i.x vy)
  | .or => done (m.setV i.x (vx ||| vy))
  | .and => done (m.setV i.x (vx &&& vy))
  | .xor => done (m.setV i.x (vx ^^^ vy))
  | .addReg => done ((m.setV i.x (vx + vy)).setFlag (255 < vx.toNat + vy.toNat))
  | .sub => done ((m.setV i.x (vx - vy)).setFlag (vy ≤ vx))
  | .subn => done ((m.setV i.x (vy - vx)).setFlag (vx ≤ vy))
  | .shr =>
    let b := m.shiftSource i
    done ((m.setV i.x (b / 2)).setFlag (b % 2 == 1))
  | .shl =>
    let b := m.shiftSource i
    done ((m.setV i.x (b * 2)).setFlag (b / 128 == 1))
  | .rnd =>
    let (b, random) := m.random.next
    done ({ m with random := random }.setV i.x (b &&& i.nn))
  | .ldIndex => done (m.setIndex i.nnn)
  | .addIndex => done (m.addToIndex vx)
  | .glyph => done (m.setIndex (UInt16.ofNat (glyphAddress vx.toNat)))
  | .digits => m.storeBlock (decimalDigits vx)
  | .store => m.storeRegisters (i.x.toNat + 1)
  | .load => m.loadRegisters (i.x.toNat + 1)
  | .draw => m.drawSprite i
  | .getDelay => done (m.setV i.x (byteOf m.timers.delay))
  | .setDelay => done { m with timers := m.timers.setDelay vx.toNat }
  | .setSound => done { m with timers := m.timers.setSound vx.toNat }
  | .waitKey => done (m.waitKey i.x)
  | .sys | .unknown => m.refused ⟨.unknownOpcode, none, some i.word.toNat⟩

/-- Execute an instruction. Whether it succeeds or not, the machine no longer waits for a key,
unless this very instruction waits. -/
def execute (m : Machine) (i : Instruction) : Outcome := { m with waitingForKey := false }.effect i

/-! ## One step -/

def step (m : Machine) : Machine × Except Fault Instruction :=
  match m.fetch with
  | .error f => (m, .error (f.attach m.pc.toNat none))
  | .ok w =>
    let i := decode w
    match { m with pc := m.pc + 2 }.execute i with
    | (m', .ok ()) => ({ m' with lastInstruction := some i }, .ok i)
    | (m', .error f) => ({ m' with pc := m.pc }, .error (f.attach m.pc.toNat (some w.toNat)))

/-- The machine on which a fetched instruction takes effect. -/
def begun (m : Machine) : Machine := { m with pc := m.pc + 2, waitingForKey := false }

theorem step_of_fetch_error {m : Machine} {f : Fault} (h : m.fetch = .error f) :
    m.step = (m, .error (f.attach m.pc.toNat none)) := by
  simp [step, h]

/-- A step whose instruction is refused keeps what the instruction changed, except for the program
counter. -/
theorem step_of_effect_error {m m' : Machine} {w : UInt16} {f : Fault} (h : m.fetch = .ok w)
    (e : m.begun.effect (decode w) = (m', .error f)) :
    m.step = ({ m' with pc := m.pc }, .error (f.attach m.pc.toNat (some w.toNat))) := by
  have e' : { m with pc := m.pc + 2 }.execute (decode w) = (m', .error f) := e
  simp [step, h, e']

theorem step_of_effect_ok {m m' : Machine} {w : UInt16} (h : m.fetch = .ok w)
    (e : m.begun.effect (decode w) = (m', .ok ())) :
    m.step = ({ m' with lastInstruction := some (decode w) }, .ok (decode w)) := by
  have e' : { m with pc := m.pc + 2 }.execute (decode w) = (m', .ok ()) := e
  simp [step, h, e']

end Chip8.Machine
