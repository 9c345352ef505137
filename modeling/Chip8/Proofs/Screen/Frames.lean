import Chip8.Proofs.Screen.Drawing
import Chip8.Proofs.Snapshot.Parts

/-!
# Frames

A host shows the frame that it took last until the screen needs a refresh. For this to be right,
everything that turns pixels over or replaces them has to ask for a refresh, and nothing but taking
a frame may do without one again. Most operations do one of two things: they leave the screen as it
is, or they ask for a refresh (`Repainted`). Then the frame that was taken last shows the pixels of
a screen that needs no refresh (`ShownBy`).
-/

namespace Chip8

/-- A byte for every pixel. -/
abbrev Frame := List UInt8

/-- What a host does with a screen by itself. -/
inductive ScreenAction
  | clear
  | draw (d : Drawing)
  | restore (data : List Int) (offset : Int)
  | takeFrame
  | readPixel (x y : Int)
  | readRows
  | readText (on off : String)
  | readImage (side : Int)
  | save

namespace Screen

variable {width height : Nat} {s s' s'' : Screen width height} {shown : Option Frame}

/-- The screen after an action. What a host reads of it makes no difference to it. -/
def after (s : Screen width height) : ScreenAction → Screen width height
  | .clear => s.clear
  | .draw d => (s.drawn d).1
  | .restore data offset => ((s.restore data offset).toOption.map Prod.fst).getD s
  | .takeFrame => s.takeFrame.2
  | .readPixel _ _ | .readRows | .readText _ _ | .readImage _ | .save => s

def afterAll (s : Screen width height) (as : List ScreenAction) : Screen width height :=
  as.foldl after s

end Screen

def ScreenAction.takesFrame : ScreenAction → Bool
  | takeFrame => true
  | _ => false

namespace Screen

variable {width height : Nat} {s s' s'' : Screen width height} {shown : Option Frame}

/-- What was returned where a frame was taken last, when some more actions are done. -/
def lastFrame (s : Screen width height) (shown : Option Frame) :
    List ScreenAction → Option Frame
  | [] => shown
  | a :: rest =>
    (s.after a).lastFrame (if a.takesFrame then some s.takeFrame.1 else shown) rest

/-! ## What changes ask for -/

/-- The screen is as it was, or a refresh was asked for. -/
def Repainted (s s' : Screen width height) : Prop := s' = s ∨ s'.needsRefresh = true

theorem Repainted.refl (s : Screen width height) : Repainted s s := Or.inl rfl

theorem Repainted.trans (h : Repainted s s') (h' : Repainted s' s'') : Repainted s s'' := by
  rcases h' with rfl | asked
  · exact h
  · exact Or.inr asked

theorem repainted_clear (s : Screen width height) : Repainted s s.clear := Or.inr rfl

theorem repainted_draw (s : Screen width height) (x y : Int) (rows : List UInt8) (clip : Bool) :
    Repainted s (s.draw x y rows clip).1 := Or.inr rfl

theorem repainted_restore {data : List Int} {offset : Int} {r : Screen width height × Int}
    (h : s.restore data offset = .ok r) : Repainted s r.1 := by
  obtain ⟨-, -, -, rfl⟩ := restore_eq_ok_iff.mp h
  exact Or.inr rfl

/-- Every action but one leaves the screen alone or asks for a refresh. -/
theorem repainted_after {a : ScreenAction} (h : a.takesFrame = false) : Repainted s (s.after a) := by
  cases a with
  | clear => exact repainted_clear s
  | draw d => exact repainted_draw s d.x d.y d.rows d.clip
  | restore data offset =>
      rw [after]
      cases hr : s.restore data offset with
      | error flaw => exact Repainted.refl s
      | ok r => exact repainted_restore hr
  | takeFrame => cases h
  | readPixel | readRows | readText | readImage | save => exact Repainted.refl s

theorem after_takesFrame {a : ScreenAction} (h : a.takesFrame = true) :
    s.after a = s.takeFrame.2 := by
  cases a with
  | takeFrame => rfl
  | _ => cases h

/-! ## What was shown -/

/-- The screen has to be shown again, or else there is a frame and it holds the pixels of the
screen, row after row: 255 for a lit one and 0 for a dark one. -/
def ShownBy (s : Screen width height) (shown : Option Frame) : Prop :=
  s.needsRefresh = true ∨ shown = some (s.pixels.map fun p => if p then 255 else 0)

/-- The frame that is taken of a screen shows its pixels, and taking it turns none of them over. -/
theorem shownBy_takeFrame (s : Screen width height) :
    s.takeFrame.2.ShownBy (some s.takeFrame.1) := by
  have same : s.takeFrame.2.pixels = s.pixels := rfl
  rw [ShownBy, same]
  exact Or.inr rfl

theorem ShownBy.repainted (h : s.ShownBy shown) (r : Repainted s s') : s'.ShownBy shown := by
  rcases r with rfl | asked
  · exact h
  · exact Or.inl asked

/-- The flag goes down where a frame is taken, and nowhere else. -/
theorem refresh_ends_iff {takes : Bool} (asked : s.needsRefresh = true)
    (frame : takes = true → s' = s.takeFrame.2) (other : takes = false → Repainted s s') :
    s'.needsRefresh = false ↔ takes = true := by
  cases takes with
  | true =>
      rw [frame rfl]
      exact iff_of_true rfl rfl
  | false =>
      have still : s'.needsRefresh = true := by
        rcases other rfl with rfl | asked'
        · exact asked
        · exact asked'
      rw [still]
      exact iff_of_false Bool.noConfusion Bool.noConfusion

theorem ShownBy.after (h : s.ShownBy shown) (a : ScreenAction) :
    (s.after a).ShownBy (if a.takesFrame then some s.takeFrame.1 else shown) := by
  cases takes : a.takesFrame with
  | true =>
      rw [after_takesFrame takes]
      exact shownBy_takeFrame s
  | false => exact h.repainted (repainted_after takes)

theorem ShownBy.afterAll (h : s.ShownBy shown) (as : List ScreenAction) :
    (s.afterAll as).ShownBy (s.lastFrame shown as) := by
  induction as generalizing s shown with
  | nil => exact h
  | cons a rest ih => exact ih (h.after a)

end Screen

end Chip8
