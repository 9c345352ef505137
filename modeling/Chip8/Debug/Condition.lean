import Chip8.Machine.Basic

/-!
# Register conditions

A condition compares a register of the machine with a number. It is put together from the name of
the register and the sign of the comparison, and carries a description for the one who reads it.
-/

namespace Chip8.Debug

open Chip8.Text

inductive Register
  | v (r : Fin 16)
  | index
  | pc
  | stackPointer
  | delay
  | sound
  deriving DecidableEq, Repr

namespace Register

def name : Register → String
  | v r => s!"v{(hexDigit r).toLower}"
  | index => "i"
  | pc => "pc"
  | stackPointer => "sp"
  | delay => "delay"
  | sound => "sound"

def all : List Register :=
  [delay, index, pc, sound, stackPointer] ++ (List.finRange 16).map v

def ofName? (s : String) : Option Register := all.find? fun r => r.name == smalls s

/-- What a register holds. The stack pointer is the number of return addresses. -/
def value (r : Register) (m : Machine) : Nat :=
  match r with
  | v r => (m.v.get r).toNat
  | index => m.index.toNat
  | pc => m.pc.toNat
  | stackPointer => m.stack.length
  | delay => m.timers.delay.toNat
  | sound => m.timers.sound.toNat

end Register

inductive Comparison
  | eq
  | ne
  | lt
  | le
  | gt
  | ge
  /-- Some bit is set on both sides. -/
  | bits
  deriving DecidableEq, Repr

namespace Comparison

def sign : Comparison → String
  | eq => "=="
  | ne => "!="
  | lt => "<"
  | le => "<="
  | gt => ">"
  | ge => ">="
  | bits => "&"

def all : List Comparison := [ne, bits, lt, le, eq, gt, ge]

def ofSign? (s : String) : Option Comparison := all.find? fun c => c.sign == s

/-- The bits that are set in both numbers. A negative number has all bits from some place on. -/
def commonBits (a : Nat) : Int → Nat
  | .ofNat b => a &&& b
  | .negSucc b => a - (a &&& b)

def holds (c : Comparison) (actual : Nat) (value : Int) : Bool :=
  match c with
  | eq => (actual : Int) == value
  | ne => (actual : Int) != value
  | lt => (actual : Int) < value
  | le => (actual : Int) ≤ value
  | gt => value < (actual : Int)
  | ge => value ≤ (actual : Int)
  | bits => commonBits actual value != 0

end Comparison

inductive ConditionError
  | unknownRegister (given : String)
  | unknownOperator (given : String)
  deriving DecidableEq, Repr

def ConditionError.message : ConditionError → String
  | unknownRegister given =>
    let valid := ", ".intercalate (Register.all.map Register.name)
    s!"Unknown register '{given}'. Valid registers: {valid}"
  | unknownOperator given =>
    let valid := ", ".intercalate (Comparison.all.map Comparison.sign)
    s!"Unknown operator '{given}'. Valid operators: {valid}"

structure Condition where
  register : Register
  comparison : Comparison
  value : Int
  description : String
  deriving DecidableEq, Repr

namespace Condition

/-- The condition with the given parts. Without a description it is described by these parts as
they were given. An unknown register is reported before an unknown operator. -/
def ofTexts (register operator : String) (value : Int) (description : String) :
    Except ConditionError Condition :=
  match Register.ofName? register, Comparison.ofSign? operator with
  | none, _ => .error (.unknownRegister register)
  | some _, none => .error (.unknownOperator operator)
  | some r, some c =>
    let described := if description.isEmpty then s!"{register} {operator} {value}" else description
    .ok ⟨r, c, value, described⟩

def holds (c : Condition) (m : Machine) : Bool := c.comparison.holds (c.register.value m) c.value

def text (c : Condition) : String :=
  s!"RegisterCondition('{c.register.name}', '{c.comparison.sign}', {c.value})"

end Condition

end Chip8.Debug
