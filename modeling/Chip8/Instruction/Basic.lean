import Chip8.Instruction.Op
import Chip8.Text.Basic
import Chip8.Word

/-!
# Instructions

An instruction is a word together with the operation it stands for. Its operands are read off the
word: two register numbers X and Y, a nibble N, a byte NN and an address NNN. All of them can
always be read; the layout of the operation says which ones mean something.

Decoding is total. A word that no operation claims decodes to the unknown operation and is refused
only when it is executed.
-/

namespace Chip8

open Chip8.Text

structure Instruction where
  op : Op
  word : UInt16
  deriving DecidableEq, Repr

namespace Instruction

def family (i : Instruction) : Nat := i.word.toNat / 4096

/-- The second nibble, a register number. -/
def x (i : Instruction) : Fin 16 := ⟨i.word.toNat / 256 % 16, by omega⟩

/-- The third nibble, a register number. -/
def y (i : Instruction) : Fin 16 := ⟨i.word.toNat / 16 % 16, by omega⟩

/-- The fourth nibble, a count. -/
def n (i : Instruction) : Nat := i.word.toNat % 16

def nn (i : Instruction) : UInt8 := lowByte i.word

/-- The low twelve bits, an address. -/
def nnn (i : Instruction) : UInt16 := UInt16.ofNat (i.word.toNat % 4096)

def isKnown (i : Instruction) : Bool := i.op != .unknown

def text (i : Instruction) : String := s!"{i.op.name} ${hexWord i.word}"

end Instruction

/-! ## Decoding -/

/-- The operations of the arithmetic family, by the last nibble. -/
def arithmeticOp : Nat → Op
  | 0x0 => .ldReg
  | 0x1 => .or
  | 0x2 => .and
  | 0x3 => .xor
  | 0x4 => .addReg
  | 0x5 => .sub
  | 0x6 => .shr
  | 0x7 => .subn
  | 0xE => .shl
  | _ => .unknown

/-- The operations of the key family, by the low byte. -/
def keyOp : Nat → Op
  | 0x9E => .skipKey
  | 0xA1 => .skipNoKey
  | _ => .unknown

/-- The operations of the last family, by the low byte. -/
def deviceOp : Nat → Op
  | 0x07 => .getDelay
  | 0x0A => .waitKey
  | 0x15 => .setDelay
  | 0x18 => .setSound
  | 0x1E => .addIndex
  | 0x29 => .glyph
  | 0x33 => .digits
  | 0x55 => .store
  | 0x65 => .load
  | _ => .unknown

/-- The operations of family zero, by the low twelve bits. -/
def systemOp : Nat → Op
  | 0x0E0 => .cls
  | 0x0EE => .ret
  | _ => .sys

def opOf (w : UInt16) : Op :=
  let low := w.toNat % 4096
  match w.toNat / 4096 with
  | 0x0 => systemOp low
  | 0x1 => .jp
  | 0x2 => .call
  | 0x3 => .skipEqByte
  | 0x4 => .skipNeByte
  | 0x5 => if low % 16 = 0 then .skipEqReg else .unknown
  | 0x6 => .ldByte
  | 0x7 => .addByte
  | 0x8 => arithmeticOp (low % 16)
  | 0x9 => if low % 16 = 0 then .skipNeReg else .unknown
  | 0xA => .ldIndex
  | 0xB => .jpOffset
  | 0xC => .rnd
  | 0xD => .draw
  | 0xE => keyOp (low % 256)
  | _ => deviceOp (low % 256)

def decode (w : UInt16) : Instruction := ⟨opOf w, w⟩

@[simp] theorem decode_word (w : UInt16) : (decode w).word = w := rfl

@[simp] theorem decode_op (w : UInt16) : (decode w).op = opOf w := rfl

end Chip8
