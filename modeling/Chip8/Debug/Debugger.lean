import Chip8.Debug.Condition
import Chip8.Debug.Event

/-!
# The debugger

The debugger holds what a run has to stop for: addresses, register conditions and a request of the
host. It also remembers the last event that it reported itself or was told about.

Addresses are kept in ascending order, each once. A condition has a number under which it can be
removed; a number is not used again until all conditions are cleared, so removed conditions leave
a gap.
-/

namespace Chip8.Debug

open Chip8.Text

structure Debugger where
  /-- Addresses of the breakpoints, ascending. -/
  breakpoints : List UInt16
  /-- Conditions by number; a removed one has left a gap. -/
  conditions : List (Option Condition)
  lastEvent : Option Event
  breakRequested : Bool
  deriving DecidableEq, Repr

namespace Debugger

def idle : Debugger := ⟨[], [], none, false⟩

/-! ## Breakpoints -/

def insertAddress (a : UInt16) : List UInt16 → List UInt16
  | [] => [a]
  | b :: rest =>
    if a < b then a :: b :: rest
    else if a = b then b :: rest
    else b :: insertAddress a rest

def addBreakpoint (d : Debugger) (address : Int) : Debugger :=
  { d with breakpoints := insertAddress (wordOf address) d.breakpoints }

def removeBreakpoint (d : Debugger) (address : Int) : Debugger :=
  { d with breakpoints := d.breakpoints.filter (· != wordOf address) }

def hasBreakpoint (d : Debugger) (address : Int) : Bool := d.breakpoints.contains (wordOf address)

def clearBreakpoints (d : Debugger) : Debugger := { d with breakpoints := [] }

/-! ## Conditions -/

/-- Add a condition; the number is the one to remove it by. -/
def addCondition (d : Debugger) (c : Condition) : Nat × Debugger :=
  (d.conditions.length, { d with conditions := d.conditions ++ [some c] })

def removeCondition (d : Debugger) (number : Int) : Debugger :=
  if number < 0 then d else { d with conditions := d.conditions.set number.toNat none }

def clearConditions (d : Debugger) : Debugger := { d with conditions := [] }

def listConditions (d : Debugger) : List (Nat × Condition) :=
  d.conditions.zipIdx.filterMap fun (c, number) => c.map fun c => (number, c)

/-! ## Requests and events -/

def requestBreak (d : Debugger) : Debugger := { d with breakRequested := true }

def clearBreakRequest (d : Debugger) : Debugger := { d with breakRequested := false }

def clearAll (_ : Debugger) : Debugger := idle

def record (d : Debugger) (e : Event) : Debugger := { d with lastEvent := some e }

def stopEvent (reason : Reason) (m : Machine) (message : String) : Event :=
  ⟨reason, some m.pc.toNat, none, 0, none, message⟩

/-- The first condition that holds, in the order of their numbers. -/
def metCondition? (d : Debugger) (m : Machine) : Option Condition :=
  (d.conditions.filterMap id).find? fun c => c.holds m

/-- Whether to stop before the instruction at the program counter. A request comes first and is
used up by this; then breakpoints count, and then conditions. -/
def check (d : Debugger) (m : Machine) : Option Event × Debugger :=
  if d.breakRequested then
    let e := stopEvent .interrupt m "User interrupt"
    (some e, d.clearBreakRequest.record e)
  else if d.breakpoints.contains m.pc then
    let e := stopEvent .breakpoint m s!"Breakpoint at ${hexWord m.pc}"
    (some e, d.record e)
  else match d.metCondition? m with
    | some c =>
      let e := stopEvent .condition m s!"Condition: {c.description}"
      (some e, d.record e)
    | none => (none, d)

theorem mem_insertAddress (a b : UInt16) (l : List UInt16) :
    b ∈ insertAddress a l ↔ b = a ∨ b ∈ l := by
  induction l with
  | nil => simp [insertAddress]
  | cons c rest ih =>
    simp only [insertAddress]
    split
    · simp
    · split
      · rename_i h
        subst h
        simp
      · simp only [List.mem_cons, ih]
        constructor
        · rintro (h | h | h)
          · exact Or.inr (Or.inl h)
          · exact Or.inl h
          · exact Or.inr (Or.inr h)
        · rintro (h | h | h)
          · exact Or.inr (Or.inl h)
          · exact Or.inl h
          · exact Or.inr (Or.inr h)

theorem hasBreakpoint_addBreakpoint (d : Debugger) (a b : Int) :
    (d.addBreakpoint a).hasBreakpoint b = (decide (wordOf b = wordOf a) || d.hasBreakpoint b) := by
  simp [hasBreakpoint, addBreakpoint, mem_insertAddress, List.contains_eq_mem]

end Debugger

end Chip8.Debug
