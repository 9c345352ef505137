import Chip8.Instruction.Basic

/-!
# Encoding instructions

An assembler names an operation and gives its operands as integers. Only the operands of the
operation's layout are used, and of each only as many low bits as its field has room for. Every
operation but the unknown one has an encoding.
-/

namespace Chip8

open Chip8.Text

/-- Operands as an assembler gives them, with the word they were read from if there was one. -/
structure Operands where
  raw : Int
  x : Int
  y : Int
  n : Int
  nn : Int
  nnn : Int
  deriving DecidableEq, Repr

def Instruction.operands (i : Instruction) : Operands where
  raw := i.word.toNat
  x := i.x
  y := i.y
  n := i.n
  nn := i.nn.toNat
  nnn := i.nnn.toNat

/-- The unknown operation has no pattern to put operands into. -/
structure Unencodable where
  raw : Int
  deriving DecidableEq, Repr

def Unencodable.message (e : Unencodable) : String :=
  s!"cannot encode unknown instruction ${hex 4 e.raw}"

/-- The low bits of an operand that fit below `size`, moved up to their place in the word. -/
def field (operand : Int) (size shift : Nat) : UInt16 :=
  UInt16.ofNat ((operand % size).toNat * shift)

def Layout.bits (f : Operands) : Layout → UInt16
  | .plain => 0
  | .address => field f.nnn 4096 1
  | .registerByte => field f.x 16 256 + field f.nn 256 1
  | .registers => field f.x 16 256 + field f.y 16 16
  | .sprite => field f.x 16 256 + field f.y 16 16 + field f.n 16 1
  | .register => field f.x 16 256

def encode (op : Op) (f : Operands) : Except Unencodable UInt16 :=
  if op = .unknown then .error ⟨f.raw⟩ else .ok (op.pattern + op.layout.bits f)

theorem encode_eq_error_iff (op : Op) (f : Operands) (e : Unencodable) :
    encode op f = .error e ↔ op = .unknown ∧ e = ⟨f.raw⟩ := by
  unfold encode
  split <;> simp_all [eq_comm]

end Chip8
