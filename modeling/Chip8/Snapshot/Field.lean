import Chip8.Word

/-!
# Fields of a snapshot

A snapshot is read back from a list of integers, part after part. Each part starts at an offset
and takes numbers or blocks of numbers from there on. An offset below zero counts from the end of
the list. Blocks are cut off where the list ends, so a part checks the length of its blocks;
single numbers have to be there, at positions of at most 64 bits.
-/

namespace Chip8.Snapshot

inductive Flaw
  | missingNumber
  /-- A position takes more than 64 bits. -/
  | positionTooLarge
  /-- A block holds a number that is no byte. -/
  | notBytes
  | truncatedRegisters
  | truncatedMemory
  | truncatedScreen
  | stackDepth (depth : Int)
  | screenSize (savedWidth savedHeight : Int) (width height : Nat)
  | trailing (count : Int)
  deriving DecidableEq, Repr

def Flaw.message : Flaw → String
  | missingNumber => "list index out of range"
  | positionTooLarge => "cannot fit 'int' into an index-sized integer"
  | notBytes => "bytes must be in range(0, 256)"
  | truncatedRegisters => "truncated register file"
  | truncatedMemory => "truncated memory image"
  | truncatedScreen => "truncated display image"
  | stackDepth depth => s!"stack depth {depth} exceeds 16"
  | screenSize savedWidth savedHeight width height =>
    s!"snapshot display is {savedWidth}x{savedHeight}, emulator display is {width}x{height}"
  | trailing count => s!"{count} trailing bytes"

def isPosition (position : Int) : Bool :=
  -9223372036854775808 ≤ position && position ≤ 9223372036854775807

/-- The number at a position; the last number is also at position `-1`. -/
def numberAt (data : List Int) (position : Int) : Except Flaw Int :=
  let k := if position < 0 then position + data.length else position
  if !isPosition position then .error .positionTooLarge
  else if k < 0 then .error .missingNumber
  else match data[k.toNat]? with
    | some n => .ok n
    | none => .error .missingNumber

/-- The place in a list of the given length that a position stands for, at most its end. -/
def clamp (length : Nat) (position : Int) : Nat :=
  if position < 0 then (position + length).toNat else min position.toNat length

/-- The numbers from a position on, `count` of them or as many as there are. -/
def block (data : List Int) (position : Int) (count : Nat) : List Int :=
  (data.take (clamp data.length (position + count))).drop (clamp data.length position)

def bytes (numbers : List Int) : Except Flaw (List UInt8) :=
  if numbers.all fun n => 0 ≤ n && n < 256 then .ok (numbers.map byteOf) else .error .notBytes

/-- The bits that one of two integers has; a negative integer has all bits from some place on. -/
def union : Int → Int → Int
  | .ofNat m, .ofNat n => .ofNat (m ||| n)
  | .ofNat m, .negSucc n => .negSucc (n - (n &&& m))
  | .negSucc m, .ofNat n => .negSucc (m - (m &&& n))
  | .negSucc m, .negSucc n => .negSucc (m &&& n)

/-- The number whose high part stands at a position and whose low byte stands behind it. Numbers
that are no bytes run into each other. -/
def pairAt (data : List Int) (position : Int) : Except Flaw Int := do
  let high ← numberAt data position
  let low ← numberAt data (position + 1)
  return union (high * 256) low

def numbers (bytes : List UInt8) : List Int := bytes.map fun b => (b.toNat : Int)

/-- A byte behind a number is added to it. -/
theorem union_byte (high low : Nat) (h : low < 256) :
    union ((high : Int) * 256) low = ((high * 256 + low : Nat) : Int) := by
  have e : (high : Int) * 256 = Int.ofNat (high * 256) := by simp
  rw [e]
  show Int.ofNat (high * 256 ||| low) = _
  have := Nat.shiftLeft_add_eq_or_of_lt (i := 8) h high
  rw [Nat.shiftLeft_eq] at this
  rw [← this]
  rfl

end Chip8.Snapshot
