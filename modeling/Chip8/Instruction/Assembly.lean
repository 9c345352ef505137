import Chip8.Instruction.Basic

/-!
# Assembly text

An instruction is written as a mnemonic and its operands. Numbers stand behind `#` in base
sixteen, except for the height of a sprite, which is decimal; registers are `V0` to `VF`. A word
that means nothing is written as data.
-/

namespace Chip8

open Chip8.Text

structure Assembly where
  mnemonic : String
  operands : String
  deriving DecidableEq, Repr

namespace Assembly

def text (a : Assembly) : String :=
  if a.operands.isEmpty then a.mnemonic else s!"{a.mnemonic} {a.operands}"

def isData (a : Assembly) : Bool := a.mnemonic == "DW" || a.mnemonic == "DB"

def dataWord (w : UInt16) : Assembly := ⟨"DW", s!"#{hexWord w}"⟩

def dataByte (b : UInt8) : Assembly := ⟨"DB", s!"#{hexByte b}"⟩

end Assembly

def registerText (r : Fin 16) : String := s!"V{hexDigit r}"

namespace Instruction

def assembly (i : Instruction) : Assembly :=
  let vx := registerText i.x
  let vy := registerText i.y
  let byte := s!"#{hexByte i.nn}"
  let address := s!"#{hex 3 i.nnn.toNat}"
  let registerByte := s!"{vx}, {byte}"
  let registers := s!"{vx}, {vy}"
  match i.op with
  | .sys => ⟨"SYS", address⟩
  | .cls => ⟨"CLS", ""⟩
  | .ret => ⟨"RET", ""⟩
  | .jp => ⟨"JP", address⟩
  | .call => ⟨"CALL", address⟩
  | .skipEqByte => ⟨"SE", registerByte⟩
  | .skipNeByte => ⟨"SNE", registerByte⟩
  | .skipEqReg => ⟨"SE", registers⟩
  | .ldByte => ⟨"LD", registerByte⟩
  | .addByte => ⟨"ADD", registerByte⟩
  | .ldReg => ⟨"LD", registers⟩
  | .or => ⟨"OR", registers⟩
  | .and => ⟨"AND", registers⟩
  | .xor => ⟨"XOR", registers⟩
  | .addReg => ⟨"ADD", registers⟩
  | .sub => ⟨"SUB", registers⟩
  | .shr => ⟨"SHR", registers⟩
  | .subn => ⟨"SUBN", registers⟩
  | .shl => ⟨"SHL", registers⟩
  | .skipNeReg => ⟨"SNE", registers⟩
  | .ldIndex => ⟨"LD", s!"I, {address}"⟩
  | .jpOffset => ⟨"JP", s!"V0, {address}"⟩
  | .rnd => ⟨"RND", registerByte⟩
  | .draw => ⟨"DRW", s!"{vx}, {vy}, {i.n}"⟩
  | .skipKey => ⟨"SKP", vx⟩
  | .skipNoKey => ⟨"SKNP", vx⟩
  | .getDelay => ⟨"LD", s!"{vx}, DT"⟩
  | .waitKey => ⟨"LD", s!"{vx}, K"⟩
  | .setDelay => ⟨"LD", s!"DT, {vx}"⟩
  | .setSound => ⟨"LD", s!"ST, {vx}"⟩
  | .addIndex => ⟨"ADD", s!"I, {vx}"⟩
  | .glyph => ⟨"LD", s!"F, {vx}"⟩
  | .digits => ⟨"LD", s!"B, {vx}"⟩
  | .store => ⟨"LD", s!"[I], {vx}"⟩
  | .load => ⟨"LD", s!"{vx}, [I]"⟩
  | .unknown => .dataWord i.word

end Instruction

end Chip8
