/-!
# Operations

The thirty-five operations of the machine, and one more for the words that mean nothing. Each
operation has a fixed bit pattern and a layout that says which operands the other bits hold.
-/

namespace Chip8

inductive Op
  /-- `0NNN`: call a routine of the host processor. -/
  | sys
  /-- `00E0`: clear the screen. -/
  | cls
  /-- `00EE`: return from a subroutine. -/
  | ret
  /-- `1NNN`: jump. -/
  | jp
  /-- `2NNN`: call a subroutine. -/
  | call
  /-- `3XNN`: skip if VX is NN. -/
  | skipEqByte
  /-- `4XNN`: skip if VX is not NN. -/
  | skipNeByte
  /-- `5XY0`: skip if VX is VY. -/
  | skipEqReg
  /-- `6XNN`: VX becomes NN. -/
  | ldByte
  /-- `7XNN`: NN is added to VX, without a flag. -/
  | addByte
  /-- `8XY0`: VX becomes VY. -/
  | ldReg
  /-- `8XY1`: bitwise or. -/
  | or
  /-- `8XY2`: bitwise and. -/
  | and
  /-- `8XY3`: bitwise exclusive or. -/
  | xor
  /-- `8XY4`: VY is added to VX, the flag is the carry. -/
  | addReg
  /-- `8XY5`: VY is taken from VX, the flag says that nothing was borrowed. -/
  | sub
  /-- `8XY6`: shift right, the flag is the bit that falls out. -/
  | shr
  /-- `8XY7`: VX becomes VY less VX, the flag says that nothing was borrowed. -/
  | subn
  /-- `8XYE`: shift left, the flag is the bit that falls out. -/
  | shl
  /-- `9XY0`: skip if VX is not VY. -/
  | skipNeReg
  /-- `ANNN`: the index becomes NNN. -/
  | ldIndex
  /-- `BNNN`: jump to NNN plus a register. -/
  | jpOffset
  /-- `CXNN`: VX becomes a random byte masked by NN. -/
  | rnd
  /-- `DXYN`: draw a sprite of N rows, the flag is the collision. -/
  | draw
  /-- `EX9E`: skip if key VX is down. -/
  | skipKey
  /-- `EXA1`: skip if key VX is up. -/
  | skipNoKey
  /-- `FX07`: VX becomes the delay timer. -/
  | getDelay
  /-- `FX0A`: wait for a key and put it into VX. -/
  | waitKey
  /-- `FX15`: the delay timer becomes VX. -/
  | setDelay
  /-- `FX18`: the sound timer becomes VX. -/
  | setSound
  /-- `FX1E`: VX is added to the index. -/
  | addIndex
  /-- `FX29`: the index becomes the glyph of VX. -/
  | glyph
  /-- `FX33`: the three decimal digits of VX are stored at the index. -/
  | digits
  /-- `FX55`: V0 to VX are stored at the index. -/
  | store
  /-- `FX65`: V0 to VX are loaded from the index. -/
  | load
  /-- Every other word. -/
  | unknown
  deriving DecidableEq, Repr

/-- The operands that the free bits of a word hold. -/
inductive Layout
  | plain
  | address
  | registerByte
  | registers
  | sprite
  | register
  deriving DecidableEq, Repr

namespace Op

def all : List Op :=
  [sys, cls, ret, jp, call, skipEqByte, skipNeByte, skipEqReg, ldByte, addByte, ldReg, or, and,
   xor, addReg, sub, shr, subn, shl, skipNeReg, ldIndex, jpOffset, rnd, draw, skipKey, skipNoKey,
   getDelay, waitKey, setDelay, setSound, addIndex, glyph, digits, store, load, unknown]

def name : Op → String
  | sys => "SYS"
  | cls => "CLS"
  | ret => "RET"
  | jp => "JP"
  | call => "CALL"
  | skipEqByte => "SE_VX_NN"
  | skipNeByte => "SNE_VX_NN"
  | skipEqReg => "SE_VX_VY"
  | ldByte => "LD_VX_NN"
  | addByte => "ADD_VX_NN"
  | ldReg => "LD_VX_VY"
  | or => "OR"
  | and => "AND"
  | xor => "XOR"
  | addReg => "ADD_VX_VY"
  | sub => "SUB"
  | shr => "SHR"
  | subn => "SUBN"
  | shl => "SHL"
  | skipNeReg => "SNE_VX_VY"
  | ldIndex => "LD_I"
  | jpOffset => "JP_OFFSET"
  | rnd => "RND"
  | draw => "DRW"
  | skipKey => "SKP"
  | skipNoKey => "SKNP"
  | getDelay => "LD_VX_DT"
  | waitKey => "LD_VX_K"
  | setDelay => "LD_DT_VX"
  | setSound => "LD_ST_VX"
  | addIndex => "ADD_I_VX"
  | glyph => "LD_F_VX"
  | digits => "LD_B_VX"
  | store => "LD_MEM_VX"
  | load => "LD_VX_MEM"
  | unknown => "UNKNOWN"

def ofName? (s : String) : Option Op := all.find? fun op => op.name == s

/-- The fixed bits of the operation's words. Words without a meaning have none. -/
def pattern : Op → UInt16
  | sys => 0x0000
  | cls => 0x00E0
  | ret => 0x00EE
  | jp => 0x1000
  | call => 0x2000
  | skipEqByte => 0x3000
  | skipNeByte => 0x4000
  | skipEqReg => 0x5000
  | ldByte => 0x6000
  | addByte => 0x7000
  | ldReg => 0x8000
  | or => 0x8001
  | and => 0x8002
  | xor => 0x8003
  | addReg => 0x8004
  | sub => 0x8005
  | shr => 0x8006
  | subn => 0x8007
  | shl => 0x800E
  | skipNeReg => 0x9000
  | ldIndex => 0xA000
  | jpOffset => 0xB000
  | rnd => 0xC000
  | draw => 0xD000
  | skipKey => 0xE09E
  | skipNoKey => 0xE0A1
  | getDelay => 0xF007
  | waitKey => 0xF00A
  | setDelay => 0xF015
  | setSound => 0xF018
  | addIndex => 0xF01E
  | glyph => 0xF029
  | digits => 0xF033
  | store => 0xF055
  | load => 0xF065
  | unknown => 0x0000

def layout : Op → Layout
  | cls | ret | unknown => .plain
  | sys | jp | call | ldIndex | jpOffset => .address
  | skipEqByte | skipNeByte | ldByte | addByte | rnd => .registerByte
  | skipEqReg | ldReg | or | and | xor | addReg | sub | shr | subn | shl | skipNeReg => .registers
  | draw => .sprite
  | skipKey | skipNoKey | getDelay | waitKey | setDelay | setSound | addIndex | glyph | digits
  | store | load => .register

theorem mem_all (op : Op) : op ∈ all := by
  cases op <;> decide

end Op

end Chip8
