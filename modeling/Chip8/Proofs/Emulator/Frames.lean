import Chip8.Proofs.Emulator.Host
import Chip8.Proofs.Machine.Footprint
import Chip8.Proofs.Screen.Frames
import Chip8.Proofs.Snapshot.Rollback

/-!
# Showing the screen of an emulator

The screen of an emulator is turned over by drawings, cleared by an instruction and by every reset,
and replaced by snapshots. A snapshot that is restored in vain may replace it twice, by pixels from
the data and by those from before; both ask for a refresh. So a host may show the last frame for as
long as no refresh is asked for, whatever else it does with the emulator or with the screen itself.
-/

namespace Chip8

/-! ## Machines -/

namespace Machine

variable {m : Machine}

theorem repainted_drawSprite (m : Machine) (i : Instruction) :
    Screen.Repainted m.screen (m.drawSprite i).1.screen := by
  unfold drawSprite
  split
  · exact Screen.Repainted.refl m.screen
  · exact Screen.repainted_draw m.screen _ _ _ _

theorem repainted_effect (m : Machine) (i : Instruction) :
    Screen.Repainted m.screen (m.effect i).1.screen := by
  by_cases cls : i.op = .cls
  · rw [effect, cls]
    exact Screen.repainted_clear m.screen
  · by_cases draw : i.op = .draw
    · rw [effect, draw]
      exact repainted_drawSprite m i
    · exact Or.inl ((effect_footprint m i).screen cls draw)

/-- However far restoring gets. -/
theorem repainted_restoreParts (m : Machine) (data : List Int) (offset : Int) :
    Screen.Repainted m.screen (m.restoreParts data offset).1.screen := by
  obtain ⟨v, index, pc, stack, waiting, registers⟩ := restoreRegisters_frame m data offset
  unfold restoreParts
  rcases hr : m.restoreRegisters data offset with ⟨m₁, e | size⟩ <;> rw [hr] at registers <;>
    cases registers
  · exact Screen.Repainted.refl m.screen
  · dsimp only
    rcases m.timers.restore data (offset + size) with ⟨timers, e | _⟩
    · exact Screen.Repainted.refl m.screen
    · dsimp only
      split
      · exact Screen.Repainted.refl m.screen
      · split
        · exact Screen.Repainted.refl m.screen
        · rename_i restored
          exact Screen.repainted_restore restored

end Machine

/-! ## Hosts -/

namespace Emulator

/-- What a host does with an emulator, or with its screen by itself. -/
inductive Use
  | whole (a : Action)
  | screen (a : ScreenAction)

def Use.takesFrame : Use → Bool
  | whole .takeFrame => true
  | whole _ => false
  | screen a => a.takesFrame

def use (e : Emulator) : Use → Emulator
  | .whole a => e.after a
  | .screen a => e.withMachine { e.machine with screen := e.machine.screen.after a }

def useAll (e : Emulator) (us : List Use) : Emulator := us.foldl use e

/-- What was returned where a frame was taken last, when the emulator is used some more. -/
def lastFrame (e : Emulator) (shown : Option Frame) : List Use → Option Frame
  | [] => shown
  | u :: rest =>
    (e.use u).lastFrame (if u.takesFrame then some e.machine.screen.takeFrame.1 else shown) rest

variable {e : Emulator} {shown : Option Frame}

/-- Whatever a machine does to its screen, or a host to the machine. -/
theorem kept_repainted (s : Screen 64 32) :
    UnshownKept fun m => Screen.Repainted s m.screen where
  execute {m} i h := h.trans (Machine.repainted_effect { m with waitingForKey := false } i)
  tick h := h
  reset {m} _ h := h.trans (Screen.repainted_clear m.screen)
  resetRegisters h := h
  setDelay _ h := h
  setSound _ h := h
  restore raw h := by
    refine Machine.restore_keeps (P := fun m => s.Repainted m.screen) h raw ?_
    intro m data offset before
    exact before.trans (Machine.repainted_restoreParts m data offset)
  write _ _ _ _ _ _ h := h

theorem repainted_use {u : Use} (h : u.takesFrame = false) :
    Screen.Repainted e.machine.screen (e.use u).machine.screen := by
  have start : Screen.Repainted e.machine.screen e.machine.screen := Screen.Repainted.refl _
  cases u with
  | whole a =>
      refine (kept_repainted e.machine.screen).after start a (fun _ _ => start) ?_
      rintro rfl
      cases h
  | screen a => exact Screen.repainted_after h

theorem use_takesFrame {u : Use} (h : u.takesFrame = true) :
    (e.use u).machine.screen = e.machine.screen.takeFrame.2 := by
  cases u with
  | whole a =>
      cases a with
      | takeFrame => rfl
      | _ => cases h
  | screen a =>
      cases a with
      | takeFrame => rfl
      | _ => cases h

theorem shownBy_use (h : e.machine.screen.ShownBy shown) (u : Use) :
    (e.use u).machine.screen.ShownBy
      (if u.takesFrame then some e.machine.screen.takeFrame.1 else shown) := by
  cases takes : u.takesFrame with
  | true =>
      rw [use_takesFrame takes]
      exact Screen.shownBy_takeFrame e.machine.screen
  | false => exact h.repainted (repainted_use takes)

theorem shownBy_useAll (h : e.machine.screen.ShownBy shown) (us : List Use) :
    (e.useAll us).machine.screen.ShownBy (e.lastFrame shown us) := by
  induction us generalizing e shown with
  | nil => exact h
  | cons u rest ih => exact ih (shownBy_use h u)

/-- **No repaint is missed.** Whatever is done with a new screen of any size, it has to be shown
again, or a frame was taken and the one taken last holds a 255 for every lit pixel and a 0 for every
dark one. The same is true of the screen of an emulator, whatever is done with either of them. The
flag goes down where a frame is taken and nowhere else. -/
theorem no_repaint_missed :
    (∀ (width height : Nat) (as : List ScreenAction),
      ((Screen.blank width height).afterAll as).ShownBy
        ((Screen.blank width height).lastFrame none as)) ∧
    (∀ (dialect : Dialect) (policy : Policy) (random : Random.Source) (frequency : Nat)
        (us : List Use),
      ((ofMachine (.fresh dialect policy random) frequency).useAll us).machine.screen.ShownBy
        ((ofMachine (.fresh dialect policy random) frequency).lastFrame none us)) ∧
    (∀ {width height : Nat} (s : Screen width height) (a : ScreenAction), s.needsRefresh = true →
      ((s.after a).needsRefresh = false ↔ a.takesFrame = true)) ∧
    ∀ (e : Emulator) (u : Use), e.machine.screen.needsRefresh = true →
      ((e.use u).machine.screen.needsRefresh = false ↔ u.takesFrame = true) := by
  refine ⟨fun width height as => ?_, fun dialect policy random frequency us => ?_,
    fun s a asked => ?_, fun e u asked => ?_⟩
  · have start : (Screen.blank width height).ShownBy none := Or.inl rfl
    exact start.afterAll as
  · exact shownBy_useAll (Or.inl rfl) us
  · exact Screen.refresh_ends_iff asked Screen.after_takesFrame Screen.repainted_after
  · exact Screen.refresh_ends_iff asked use_takesFrame repainted_use

end Emulator

end Chip8
