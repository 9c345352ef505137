import Chip8.Fault
import Chip8.Snapshot.Field

/-!
# Memory

The machine has 4096 bytes of memory. The glyphs of the sixteen digits stand at `0x050`, programs
are loaded at `0x200`, and everything can be overwritten. Addresses are arbitrary integers: what
happens outside of the memory is a matter of policy. Either an address is reduced modulo 4096 or
the access is refused.

An access to several bytes goes through them one after the other. A refused write therefore leaves
the bytes before the refused address written; an instruction that must not do so checks the whole
block first.
-/

namespace Chip8

/-- What happens on access to an address outside of the memory. -/
inductive Policy
  | wrap
  | fault
  deriving DecidableEq, Repr

abbrev Cells := Vector UInt8 4096

namespace Policy

def name : Policy → String
  | wrap => "wrap"
  | fault => "fault"

/-- The cell an address names, modulo the size of the memory. -/
def cellOf (address : Int) : Fin 4096 := ⟨(address % 4096).toNat, by omega⟩

def inMemory : Int → Bool
  | .ofNat n => n < 4096
  | .negSucc _ => false

theorem inMemory_iff (address : Int) : inMemory address ↔ 0 ≤ address ∧ address < 4096 := by
  cases address with
  | ofNat n =>
    simp only [inMemory, decide_eq_true_eq, Int.ofNat_eq_natCast]
    omega
  | negSucc n => simp [inMemory]

def resolve (p : Policy) (address : Int) : Except Fault (Fin 4096) :=
  if inMemory address ∨ p = wrap then .ok (cellOf address)
  else .error (.of (.memoryAccess address))

/-- Whether a block of `count` bytes may be used, told by its first and its last address. -/
def check (p : Policy) (address count : Int) : Except Fault Unit :=
  if count ≤ 0 then .ok ()
  else do
    let _ ← p.resolve address
    let _ ← p.resolve (address + count - 1)

theorem resolve_wrap (address : Int) : wrap.resolve address = .ok (cellOf address) := by
  simp [resolve]

theorem resolve_of_inMemory {address : Int} (p : Policy) (h : inMemory address) :
    p.resolve address = .ok (cellOf address) := by
  simp [resolve, h]

theorem resolve_eq_error_iff (p : Policy) (address : Int) (f : Fault) :
    p.resolve address = .error f ↔
      p = fault ∧ ¬ inMemory address ∧ f = .of (.memoryAccess address) := by
  unfold resolve
  cases p <;> by_cases h : inMemory address <;> simp [h, eq_comm]

end Policy

/-- Bytes written over cells from `start` on; what does not fit is left out. -/
def Cells.place (cells : Cells) (start : Nat) : List UInt8 → Cells
  | [] => cells
  | b :: rest =>
    if h : start < 4096 then place (Table.put cells ⟨start, h⟩ b) (start + 1) rest else cells

/-- The glyphs of the digits `0` to `F`, five rows each, in the left half of each byte. -/
def glyphs : List UInt8 :=
  [0xF0, 0x90, 0x90, 0x90, 0xF0,
   0x20, 0x60, 0x20, 0x20, 0x70,
   0xF0, 0x10, 0xF0, 0x80, 0xF0,
   0xF0, 0x10, 0xF0, 0x10, 0xF0,
   0x90, 0x90, 0xF0, 0x10, 0x10,
   0xF0, 0x80, 0xF0, 0x10, 0xF0,
   0xF0, 0x80, 0xF0, 0x90, 0xF0,
   0xF0, 0x10, 0x20, 0x40, 0x40,
   0xF0, 0x90, 0xF0, 0x90, 0xF0,
   0xF0, 0x90, 0xF0, 0x10, 0xF0,
   0xF0, 0x90, 0xF0, 0x90, 0x90,
   0xE0, 0x90, 0xE0, 0x90, 0xE0,
   0xF0, 0x80, 0x80, 0x80, 0xF0,
   0xE0, 0x90, 0x90, 0x90, 0xE0,
   0xF0, 0x80, 0xF0, 0x80, 0xF0,
   0xF0, 0x80, 0xF0, 0x80, 0x80]

def glyphStart : Nat := 0x050

def programStart : Nat := 0x200

def maxProgramSize : Nat := 4096 - programStart

def Cells.fresh : Cells := Cells.place (Vector.replicate 4096 0) glyphStart glyphs

/-- Where the glyph of a digit stands; only the low nibble of the digit counts. -/
def glyphAddress (digit : Int) : Nat := glyphStart + 5 * (digit % 16).toNat

inductive LoadError
  | tooLarge (size : Nat)
  | unreadable (path reason : String)
  deriving DecidableEq, Repr

namespace LoadError

def message : LoadError → String
  | tooLarge size => s!"program is {size} bytes, maximum is {maxProgramSize} bytes"
  | unreadable path reason => s!"cannot read ROM {path}: {reason}"

def size? : LoadError → Option Nat
  | tooLarge size => some size
  | unreadable _ _ => none

end LoadError

structure Memory where
  policy : Policy
  cells : Cells
  deriving DecidableEq, Repr

namespace Memory

def fresh (policy : Policy) : Memory := ⟨policy, Cells.fresh⟩

def reset (m : Memory) : Memory := { m with cells := Cells.fresh }

/-! ## Access -/

def read (m : Memory) (address : Int) : Except Fault UInt8 := do
  return m.cells.get (← m.policy.resolve address)

def write (m : Memory) (address : Int) (b : UInt8) : Except Fault Memory := do
  let cell ← m.policy.resolve address
  return { m with cells := Table.put m.cells cell b }

def readWord (m : Memory) (address : Int) : Except Fault UInt16 := do
  let high ← m.read address
  let low ← m.read (address + 1)
  return wordOfBytes high low

def readBytes (m : Memory) (address : Int) : Nat → Except Fault (List UInt8)
  | 0 => .ok []
  | count + 1 => do
    let b ← m.read address
    return b :: (← m.readBytes (address + 1) count)

/-- Write bytes one after the other, up to the first one that is refused. -/
def writeBytes (m : Memory) (address : Int) : List UInt8 → Memory × Except Fault Unit
  | [] => (m, .ok ())
  | b :: rest =>
    match m.write address b with
    | .ok m => m.writeBytes (address + 1) rest
    | .error f => (m, .error f)

/-- Copy a program to where programs are loaded. The rest of the memory stays. -/
def loadProgram (m : Memory) (program : List UInt8) : Except LoadError Memory :=
  if program.length ≤ maxProgramSize then
    .ok { m with cells := m.cells.place programStart program }
  else .error (.tooLarge program.length)

/-! ## Snapshots -/

def saved (m : Memory) : List UInt8 := m.cells.toList

/-- The contents saved at an offset, with the number of bytes they take. -/
def restore (m : Memory) (data : List Int) (offset : Int) : Except Snapshot.Flaw (Memory × Int) :=
  let image := Snapshot.block data offset 4096
  if image.length ≠ 4096 then .error .truncatedMemory
  else do
    let bytes ← Snapshot.bytes image
    return ({ m with cells := Cells.place m.cells 0 bytes }, 4096)

end Memory

end Chip8
