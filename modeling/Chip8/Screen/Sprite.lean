import Chip8.Screen.Basic

/-!
# Sprites

A sprite is a list of bytes, one for each row, the most significant bit on the left. Drawing it
turns over every pixel that a set bit lands on, and tells whether a lit pixel went dark.

The corner of a sprite wraps around the screen. A bit that would land beyond the right or the
lower edge is dropped when the sprite is clipped, and lands on the opposite side otherwise.
-/

namespace Chip8

/-- Whether bit `column` of a row is set, counted from the left. -/
def spriteBit (row : UInt8) (column : Nat) : Bool := row.toNat.testBit (7 - column)

def spriteColumns (row : UInt8) : List Nat := (List.range 8).filter (spriteBit row)

/-- Column and row of every set bit, row by row. -/
def spriteBits (rows : List UInt8) : List (Nat × Nat) :=
  rows.zipIdx.flatMap fun (row, r) => (spriteColumns row).map fun c => (c, r)

/-- Where a coordinate lands on a side of the given size. -/
def landing (clip : Bool) (size p : Nat) : Option (Fin size) :=
  if h : p < size then some ⟨p, h⟩
  else if clip then none
  else if h : 0 < size then some ⟨p % size, Nat.mod_lt p h⟩
  else none

namespace Screen

variable {width height : Nat}

/-- The pixels that the set bits of a sprite land on, in drawing order. -/
def landings (width height : Nat) (x y : Int) (rows : List UInt8) (clip : Bool) :
    List (Fin width × Fin height) :=
  let x := (x % width).toNat
  let y := (y % height).toNat
  (spriteBits rows).filterMap fun (c, r) =>
    match landing clip width (x + c), landing clip height (y + r) with
    | some px, some py => some (px, py)
    | _, _ => none

/-- Turn pixels over one after the other; the answer tells whether a lit one went dark. -/
def flipAll (s : Screen width height) :
    List (Fin width × Fin height) → Screen width height × Bool
  | [] => (s, false)
  | (x, y) :: rest =>
    let hit := s.lit x y
    let (s, later) := (s.flip x y).flipAll rest
    (s, hit || later)

def draw (s : Screen width height) (x y : Int) (rows : List UInt8) (clip : Bool) :
    Screen width height × Bool :=
  let (s, collision) := s.flipAll (landings width height x y rows clip)
  ({ s with needsRefresh := true }, collision)

/-- A pixel is turned over as often as it is landed on. -/
theorem lit_flipAll (s : Screen width height) (ps : List (Fin width × Fin height))
    (x : Fin width) (y : Fin height) :
    (s.flipAll ps).1.lit x y = (s.lit x y ^^ decide (ps.count (x, y) % 2 = 1)) := by
  induction ps generalizing s with
  | nil => simp [flipAll]
  | cons p rest ih =>
    rcases p with ⟨px, py⟩
    simp only [flipAll, ih, lit_flip, List.count_cons]
    by_cases h : px = x ∧ py = y
    · rcases h with ⟨rfl, rfl⟩
      simp only [and_self, decide_true, BEq.rfl, if_true, Bool.xor_assoc]
      congr 1
      rcases Nat.mod_two_eq_zero_or_one (rest.count (px, py)) with e | e
      · simp [Nat.add_mod, e]
      · simp [Nat.add_mod, e]
    · have : ((px, py) == (x, y)) = false := by
        rw [beq_eq_false_iff_ne]
        intro e
        exact h ⟨congrArg Prod.fst e, congrArg Prod.snd e⟩
      simp [h, this]

end Screen

end Chip8
