import Chip8.Text.Basic

/-!
# Dialects

Interpreters disagree on a few instructions. A dialect fixes the choice for all of them when a
machine is built: the *legacy* one follows the first interpreters, the *modern* one those that
came later. A host may also put a dialect together by itself.
-/

namespace Chip8

open Chip8.Text

structure Dialect where
  name : String
  /-- `8XY6` and `8XYE` shift VY into VX, instead of VX in place. -/
  shiftsVY : Bool
  /-- `FX55` and `FX65` leave the index behind the last register. -/
  movesIndex : Bool
  /-- `BNNN` adds VX to the address, instead of V0. -/
  jumpsByVX : Bool
  /-- Sprites are cut off at the edges of the screen, instead of going on at the other side. -/
  clipsSprites : Bool
  /-- `FX1E` sets the flag when the index leaves the memory. -/
  flagsIndexOverflow : Bool
  deriving DecidableEq, Repr

namespace Dialect

def legacy : Dialect := ⟨"legacy", true, true, false, true, true⟩

def modern : Dialect := ⟨"modern", false, false, true, true, true⟩

def all : List Dialect := [legacy, modern]

def isLegacy (d : Dialect) : Bool := d.name == "legacy"

structure UnknownName where
  given : String
  deriving DecidableEq, Repr

def UnknownName.message (e : UnknownName) : String :=
  s!"Unknown quirk mode '{e.given}'. Available: cosmac, legacy, modern, vip"

/-- The dialect of a name, in any case and with blanks around it. The first interpreters are also
known by the machine they ran on; no name at all stands for the modern dialect. -/
def ofName (s : String) : Except UnknownName Dialect :=
  let key := trim (capitals s)
  if ["LEGACY", "COSMAC", "VIP"].contains key then .ok legacy
  else if ["MODERN", "DEFAULT", ""].contains key then .ok modern
  else .error ⟨s⟩

end Dialect

end Chip8
