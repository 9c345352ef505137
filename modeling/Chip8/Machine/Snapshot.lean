import Chip8.Machine.Basic
import Chip8.Screen.View

/-!
# Snapshots of a machine

A snapshot starts with four bytes that mark it as one. Then follow the registers, the timers, the
memory and the screen. The keypad belongs to the host and is not saved, and neither is the source
of random bytes.

Restoring goes from part to part. When the data turns out to be bad, some parts are replaced
already; they are put back by restoring a snapshot that was taken before. Should that one be bad
as well, the machine stays as it is then.
-/

namespace Chip8

open Chip8.Snapshot

def snapshotMark : List UInt8 := [0x43, 0x38, 0x53, 0x01]

inductive SnapshotError
  | noMark
  | badData (flaw : Flaw)
  /-- The snapshot that was taken before could not be restored either. -/
  | notPutBack (flaw : Flaw)
  deriving DecidableEq, Repr

def SnapshotError.message : SnapshotError → String
  | noMark => "Invalid snapshot format (bad header)"
  | badData flaw => s!"Invalid snapshot data: {flaw.message}"
  | notPutBack flaw => flaw.message

namespace Machine

def savedAddress (address : Int) : List UInt8 :=
  [highByte (wordOf address), lowByte (wordOf address)]

/-- Registers, index, program counter and the stack with its depth in front, the oldest return
address first. -/
def savedRegisters (m : Machine) : List UInt8 :=
  m.v.toList ++
    [highByte m.index, lowByte m.index, highByte m.pc, lowByte m.pc, byteOf m.stack.length] ++
    m.stack.reverse.flatMap savedAddress

/-- The return addresses saved at a position, the latest first. -/
def restoredStack (data : List Int) (position : Int) (depth : Nat) : Except Flaw (List Int) := do
  let oldestFirst ← (List.range depth).mapM fun (k : Nat) => pairAt data (position + 2 * k)
  return oldestFirst.reverse

/-- Restore registers and stack, and say how many numbers they take. What was restored before the
data turned out to be bad stays. -/
def restoreRegisters (m : Machine) (data : List Int) (offset : Int) :
    Machine × Except Flaw Int :=
  let file := block data offset 16
  if file.length ≠ 16 then (m, .error .truncatedRegisters)
  else match bytes file with
  | .error e => (m, .error e)
  | .ok file =>
    let m := { m with v := Vector.ofFn fun r => file.getD r 0 }
    match pairAt data (offset + 16) with
    | .error e => (m, .error e)
    | .ok index =>
      let m := { m with index := wordOf index }
      match pairAt data (offset + 18) with
      | .error e => (m, .error e)
      | .ok pc =>
        let m := { m with pc := wordOf pc }
        match numberAt data (offset + 20) with
        | .error e => (m, .error e)
        | .ok depth =>
          if stackDepth < depth then (m, .error (.stackDepth depth))
          else match restoredStack data (offset + 21) depth.toNat with
            | .error e => (m, .error e)
            -- Whether the machine waits is not saved: the waiting instruction is executed again.
            | .ok stack => ({ m with stack := stack, waitingForKey := false }, .ok (21 + 2 * depth))

def saved (m : Machine) : List UInt8 :=
  m.savedRegisters ++ m.timers.saved ++ m.memory.saved ++ m.screen.saved.map byteOf

/-- Restore all parts; nothing may be left behind them. -/
def restoreParts (m : Machine) (data : List Int) (offset : Int) : Machine × Except Flaw Unit :=
  match m.restoreRegisters data offset with
  | (m, .error e) => (m, .error e)
  | (m, .ok registersSize) =>
    let offset := offset + registersSize
    match m.timers.restore data offset with
    -- One timer may be replaced already, unlike memory, which is replaced as a whole or not at all.
    | (timers, .error e) => ({ m with timers := timers }, .error e)
    | (timers, .ok timersSize) =>
      let m := { m with timers := timers }
      let offset := offset + timersSize
      match m.memory.restore data offset with
      | .error e => (m, .error e)
      | .ok (memory, memorySize) =>
        let m := { m with memory := memory }
        let offset := offset + memorySize
        match m.screen.restore data offset with
        | .error e => (m, .error e)
        | .ok (screen, screenSize) =>
          let m := { m with screen := screen }
          let left := data.length - (offset + screenSize)
          (m, if left = 0 then .ok () else .error (.trailing left))

def snapshot (m : Machine) : List UInt8 := snapshotMark ++ m.saved

/-- Restore a snapshot, or leave the machine as it was before. -/
def restore (m : Machine) (raw : List UInt8) : Machine × Except SnapshotError Unit :=
  if raw.take 4 ≠ snapshotMark then (m, .error .noMark)
  else match m.restoreParts (numbers raw) 4 with
    | (m', .ok ()) => (m', .ok ())
    | (m', .error e) =>
      -- The parts as they were are written over `m'`, which keeps what no snapshot holds.
      match m'.restoreParts (numbers m.snapshot) 4 with
      | (m', .ok ()) => (m', .error (.badData e))
      | (m', .error e) => (m', .error (.notPutBack e))

end Machine

end Chip8
