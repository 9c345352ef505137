import Chip8.Image
import Chip8.Word

/-!
# Screens

A screen is a grid of pixels that are lit or dark. Its size is part of its type. Besides the
pixels it only keeps whether they may differ from what was last shown. A screen has no more pixels
than there is room for in an image.
-/

namespace Chip8

structure Screen (width height : Nat) where
  rows : Vector (Vector Bool width) height
  /-- Whether the pixels may have changed since the last frame was taken. -/
  needsRefresh : Bool
  deriving DecidableEq, Repr

inductive ScreenSizeError
  | notPositive (width height : Int)
  /-- The count of pixels takes more than 63 bits. -/
  | tooManyPixels
  /-- There is no room for so many pixels. Nothing is said about it. -/
  | noRoom
  deriving DecidableEq, Repr

def ScreenSizeError.message : ScreenSizeError → String
  | notPositive width height => s!"display size must be positive, got {width}x{height}"
  | tooManyPixels => "cannot fit 'int' into an index-sized integer"
  | noRoom => ""

structure PixelError where
  x : Int
  y : Int
  width : Nat
  height : Nat
  deriving DecidableEq, Repr

def PixelError.message (e : PixelError) : String :=
  s!"pixel ({e.x}, {e.y}) outside {e.width}x{e.height} display"

namespace Screen

def checkSize (width height : Int) : Except ScreenSizeError (Nat × Nat) :=
  if width ≤ 0 ∨ height ≤ 0 then .error (.notPositive width height)
  else if 9223372036854775807 < width * height then .error .tooManyPixels
  else if Image.maxPixels < width * height then .error .noRoom
  else .ok (width.toNat, height.toNat)

variable {width height : Nat}

def darkRows (width height : Nat) : Vector (Vector Bool width) height :=
  Vector.replicate height (Vector.replicate width false)

def blank (width height : Nat) : Screen width height := ⟨darkRows width height, true⟩

def clear (_ : Screen width height) : Screen width height := ⟨darkRows width height, true⟩

/-- Whether the pixel in column `x` of row `y` is lit. -/
def lit (s : Screen width height) (x : Fin width) (y : Fin height) : Bool := (s.rows.get y).get x

def pixel (s : Screen width height) (x y : Int) : Except PixelError Bool :=
  if h : 0 ≤ x ∧ x < width ∧ 0 ≤ y ∧ y < height then
    .ok (s.lit ⟨x.toNat, by omega⟩ ⟨y.toNat, by omega⟩)
  else .error ⟨x, y, width, height⟩

def flip (s : Screen width height) (x : Fin width) (y : Fin height) : Screen width height :=
  { s with rows := Table.put s.rows y (Table.put (s.rows.get y) x (!s.lit x y)) }

theorem lit_flip (s : Screen width height) (x x' : Fin width) (y y' : Fin height) :
    (s.flip x y).lit x' y' = (s.lit x' y' ^^ decide (x = x' ∧ y = y')) := by
  simp only [flip, lit, Table.get_put]
  by_cases h : y = y'
  · subst h
    by_cases k : x = x'
    · subst k
      simp
    · simp [k, Table.get_put]
  · simp [h]

theorem lit_clear (s : Screen width height) (x : Fin width) (y : Fin height) :
    s.clear.lit x y = false := by
  simp [clear, darkRows, lit]

end Screen

end Chip8
