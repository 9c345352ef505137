import Chip8.Screen.Basic
import Chip8.Snapshot.Field

/-!
# Views of a screen

The pixels can be read as rows of truth values, as a frame of bytes for a renderer, as text, as an
image, and as the numbers of a snapshot. All of them say the same. Only taking a frame leaves a
trace: after it the screen needs no refresh until it is drawn on again.
-/

namespace Chip8.Screen

variable {width height : Nat}

def toRows (s : Screen width height) : List (List Bool) := s.rows.toList.map Vector.toList

def pixels (s : Screen width height) : List Bool := s.toRows.flatten

def litCount (s : Screen width height) : Nat := s.pixels.count true

def isClear (s : Screen width height) : Bool := !s.pixels.any id

/-- A byte for every pixel, 255 for a lit one, and the screen now that it was shown. -/
def takeFrame (s : Screen width height) : List UInt8 × Screen width height :=
  (s.pixels.map fun p => if p then 255 else 0, { s with needsRefresh := false })

def text (s : Screen width height) (on off : String) : String :=
  "\n".intercalate (s.toRows.map fun row => String.join (row.map fun p => if p then on else off))

/-- The screen as an image, every pixel a square of the given side. Sides below one count as one. -/
def image (s : Screen width height) (side : Int) : Image :=
  let plain : Image := ⟨width, height, s.toRows⟩
  if side ≤ 1 then plain else plain.scale side.toNat

/-- The screen as an image, if there can be one of its size. The screen itself is not too large
for an image. -/
def render (s : Screen width height) (side : Int) : Except Image.SizeError Image := do
  if 1 < side then Image.checkSize (width * side.toNat) (height * side.toNat)
  return s.image side

/-! ## Snapshots -/

/-- Width, height and one number for every pixel. -/
def saved (s : Screen width height) : List Int :=
  (width : Int) :: (height : Int) :: s.pixels.map fun p => if p then 1 else 0

def rowsOf (width height : Nat) (pixels : Array Bool) : Vector (Vector Bool width) height :=
  Vector.ofFn fun y => Vector.ofFn fun x => pixels.getD (y * width + x) false

/-- The pixels saved at an offset, with the count of numbers they take. Every number but zero
stands for a lit pixel. -/
def restore (_ : Screen width height) (data : List Int) (offset : Int) :
    Except Snapshot.Flaw (Screen width height × Int) := do
  let savedWidth ← Snapshot.numberAt data offset
  let savedHeight ← Snapshot.numberAt data (offset + 1)
  if savedWidth ≠ width ∨ savedHeight ≠ height then
    .error (.screenSize savedWidth savedHeight width height)
  else
    let image := Snapshot.block data (offset + 2) (width * height)
    if image.length ≠ width * height then .error .truncatedScreen
    else
      let pixels := (image.map fun n => decide (n ≠ 0)).toArray
      .ok (⟨rowsOf width height pixels, true⟩, 2 + width * height)

theorem length_toRows (s : Screen width height) : s.toRows.length = height := by
  simp [toRows]

theorem length_of_mem_toRows (s : Screen width height) {row : List Bool} (h : row ∈ s.toRows) :
    row.length = width := by
  simp only [toRows, List.mem_map] at h
  obtain ⟨v, -, rfl⟩ := h
  simp

end Chip8.Screen
