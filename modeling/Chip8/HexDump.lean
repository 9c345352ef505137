import Chip8.Text.Basic

/-!
# Hex dumps

A hex dump shows a block of bytes sixteen to a row, as comment lines between two rules: the
address of the row, its bytes in base sixteen and the same bytes as characters. Bytes that are no
printable plain character show as a dot.
-/

namespace Chip8.HexDump

open Chip8.Text

/-- A block cut into rows of sixteen bytes, the last one possibly shorter. -/
def rows (data : List UInt8) : List (List UInt8) :=
  match data with
  | [] => []
  | b :: rest => (b :: rest).take 16 :: rows ((b :: rest).drop 16)
termination_by data.length
decreasing_by simp only [List.length_drop, List.length_cons]; omega

/-- The hexadecimal column of a row, filled up to the width of a full row and one more. -/
def hexColumn (row : List UInt8) : String :=
  let s := " ".intercalate (row.map hexByte)
  s ++ String.ofList (List.replicate (48 - s.length) ' ')

def byteChar (b : UInt8) : Char :=
  if 0x20 ≤ b.toNat ∧ b.toNat < 0x7F then Char.ofNat b.toNat else '.'

def rowLine (address : Int) (row : List UInt8) : String :=
  s!"; ${hex 4 address}: {hexColumn row} {String.ofList (row.map byteChar)}"

def rowLines (address : Int) : List (List UInt8) → List String
  | [] => []
  | row :: rest => rowLine address row :: rowLines (address + 16) rest

def rule : String := "; " ++ String.ofList (List.replicate 60 '-')

/-- The whole dump: two lines before the rows and two behind them. -/
def lines (data : List UInt8) (base : Int) : List String :=
  "; Hex dump:" :: rule :: rowLines base (rows data) ++ [rule, ""]

/-- The rows, one after the other, are the block. -/
theorem rows_flatten (data : List UInt8) : (rows data).flatten = data := by
  fun_induction rows data with
  | case1 => rfl
  | case2 b rest ih => rw [List.flatten_cons, ih, List.take_append_drop]

end Chip8.HexDump
