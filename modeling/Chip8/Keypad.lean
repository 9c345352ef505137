import Chip8.Text.Basic
import Chip8.Word

/-!
# Keypad

Sixteen keys, each up or down. Only the host presses and releases them; the machine looks. A host
names a key by its number or by the key of a typewriter keyboard that takes its place:

    1 2 3 C        1 2 3 4
    4 5 6 D   by   Q W E R
    7 8 9 E        A S D F
    A 0 B F        Z X C V
-/

namespace Chip8

open Chip8.Text

inductive Key
  | number (n : Int)
  | named (name : String)
  deriving DecidableEq, Repr

inductive KeyError
  | unknownName (name : String)
  | outOfRange (n : Int)
  deriving DecidableEq, Repr

/-- The typewriter keys and the keys they stand for, row by row. -/
def keyNames : List (String × Fin 16) :=
  [("1", 0x1), ("2", 0x2), ("3", 0x3), ("4", 0xC),
   ("Q", 0x4), ("W", 0x5), ("E", 0x6), ("R", 0xD),
   ("A", 0x7), ("S", 0x8), ("D", 0x9), ("F", 0xE),
   ("Z", 0xA), ("X", 0x0), ("C", 0xB), ("V", 0xF)]

def KeyError.message : KeyError → String
  | unknownName name =>
    let valid := ", ".intercalate (keyNames.map Prod.fst)
    s!"Unknown key '{name}'. Valid keys: {valid}"
  | outOfRange n => s!"Key index must be 0-15, got {n}"

/-- The number of a key. Names are looked up without regard to case. -/
def Key.resolve : Key → Except KeyError (Fin 16)
  | number n => if 0 ≤ n ∧ n < 16 then .ok (Fin.ofNat 16 n.toNat) else .error (.outOfRange n)
  | named name =>
    match keyNames.lookup (capitals name) with
    | some k => .ok k
    | none => .error (.unknownName name)

structure Keypad where
  down : Vector Bool 16
  deriving DecidableEq, Repr

namespace Keypad

def released : Keypad := ⟨Vector.replicate 16 false⟩

def setKey (k : Keypad) (key : Fin 16) (down : Bool) : Keypad := ⟨Table.put k.down key down⟩

/-- Whether a key is down; only the low nibble of the number counts. -/
def isDown (k : Keypad) (key : Int) : Bool := k.down.get ⟨(key % 16).toNat, by omega⟩

/-- The keys that are down, in ascending order. -/
def keysDown (k : Keypad) : List (Fin 16) := (List.finRange 16).filter fun key => k.down.get key

/-- The lowest key that is down. -/
def first? (k : Keypad) : Option (Fin 16) := (List.finRange 16).find? fun key => k.down.get key

def anyDown (k : Keypad) : Bool := k.down.any id

theorem mem_keysDown (k : Keypad) (key : Fin 16) : key ∈ k.keysDown ↔ k.down.get key = true := by
  simp [keysDown, List.mem_finRange]

theorem first?_eq_head? (k : Keypad) : k.first? = k.keysDown.head? := by
  simp [first?, keysDown, List.head?_filter]

end Keypad

end Chip8
