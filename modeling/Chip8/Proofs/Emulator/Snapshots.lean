import Chip8.Proofs.Emulator.Host
import Chip8.Proofs.Snapshot.Rollback

/-!
# Snapshots of an emulator

Whatever a host does, the numbers of the machine stay in range. So every emulator that can come
about has a snapshot that can be restored anywhere, and gets back to where it was when restoring
another one is given up.
-/

namespace Chip8

open Chip8.Debug Chip8.Snapshot

namespace Machine.InRange

variable {m : Machine}

/-- Restoring leaves all numbers in range, whether it succeeds or not. -/
theorem afterRestore (h : m.InRange) (raw : List UInt8) : (m.restore raw).1.InRange := by
  rcases h.restore raw with ok | ⟨-, back⟩
  · exact (snapshot_of_restore (Prod.ext rfl ok)).1
  · exact back.inRange h

end Machine.InRange

namespace Emulator

variable {e : Emulator}

theorem kept_inRange : MachineKept Machine.InRange where
  execute i h := h.execute i
  tick h := h.tick
  reset program _ := Machine.InRange.reset _ program
  resetRegisters h := h.resetRegisters
  setDelay value h := h.setDelay value
  setSound value h := h.setSound value
  restore raw h := h.afterRestore raw
  write _ _ _ _ _ _ h := h.of_eq rfl rfl
  screen _ h := h.of_eq rfl rfl

theorem Reachable.inRange (r : Reachable e) : e.machine.InRange := by
  induction r with
  | new dialect policy random _ => exact Machine.InRange.fresh dialect policy random
  | after a _ ih => exact kept_inRange.after ih a fun _ _ => ih.of_eq rfl rfl

/-! ## Snapshots -/

theorem restore_ok_iff (e : Emulator) (raw : List UInt8) :
    (e.restore raw).2 = .ok () ↔ IsSnapshot raw := e.machine.restore_ok_iff raw

/-- **Format and round trip of snapshots.** Whether bytes can be restored depends on nothing but
themselves, and what is saved then are the same bytes with tidy pixels. The snapshot of an
emulator that a host can bring about can be restored to any other, which then has the same
snapshot and is in the same state. -/
theorem snapshot_format :
    (∀ (e : Emulator) (raw : List UInt8),
      ((e.restore raw).2 = .ok () ↔ IsSnapshot raw) ∧
        ((e.restore raw).2 = .ok () → (e.restore raw).1.snapshot = cleaned raw)) ∧
    ∀ s t : Emulator, Reachable s →
      (t.restore s.snapshot).2 = .ok () ∧ (t.restore s.snapshot).1.snapshot = s.snapshot ∧
        (t.restore s.snapshot).1.machine.SameState s.machine := by
  refine ⟨fun e raw => ⟨e.restore_ok_iff raw, fun ok => ?_⟩, fun s t r => ?_⟩
  · exact (Machine.snapshot_of_restore (Prod.ext rfl ok)).2
  · obtain ⟨m, restored, -, same, state⟩ := r.inRange.round_trip t.machine
    have here : t.restore s.snapshot = (t.withMachine m, .ok ()) := by
      rw [restore, snapshot, restored]
    rw [here]
    exact ⟨rfl, same, state⟩

/-- A program that has just called a routine: there is an address on the stack. -/
def insideRoutine : Emulator := (loaded .fault 700 [0x22, 0x04]).after .step

theorem reachable_insideRoutine : Reachable insideRoutine :=
  (reachable_loaded (by decide) (by decide)).after .step

theorem insideRoutine_round_trip :
    insideRoutine.machine.stack = [0x202] ∧
      (((loaded .wrap 60 []).restore insideRoutine.snapshot).2 = .ok () ∧
        ((loaded .wrap 60 []).restore insideRoutine.snapshot).1.snapshot =
          insideRoutine.snapshot ∧
        ((loaded .wrap 60 []).restore insideRoutine.snapshot).1.machine.SameState
          insideRoutine.machine) :=
  ⟨by decide +kernel,
    snapshot_format.2 insideRoutine (loaded .wrap 60 []) reachable_insideRoutine⟩

/-- **A restore that fails is undone.** Bytes are restored, or else they are refused as a
snapshot; there is no third outcome, since the way back never fails. Then everything but the
machine is as before, and so is the machine: registers, stack, timers, memory, pixels, keypad,
last instruction, dialect, policy and source of random bytes. -/
theorem failed_restore_undone (r : Reachable e) (raw : List UInt8) :
    (e.restore raw).2 = .ok () ∨
      ((e.restore raw).2 = .error .noMark ∨ ∃ flaw, (e.restore raw).2 = .error (.badData flaw)) ∧
        ∃ m, (e.restore raw).1 = { e with machine := m } ∧ e.machine.PutBack m := by
  rcases r.inRange.restore raw with ok | ⟨refused, back⟩
  · exact Or.inl ok
  · exact Or.inr ⟨refused, (e.machine.restore raw).1, rfl, back⟩

theorem restore_dropLast (r : Reachable e) {raw : List UInt8} (s : IsSnapshot raw) :
    (e.restore raw.dropLast).2 = .error (.badData .truncatedScreen) :=
  r.inRange.restore_dropLast s

/-- A machine with an empty stack that has started both timers and drawn a glyph. -/
def drawing : Emulator :=
  ((((loaded .wrap 60 [0x60, 0x05, 0xF0, 0x15, 0xF0, 0x18, 0xD0, 0x05]).after .step).after
    .step).after .step).after .step

theorem reachable_drawing : Reachable drawing :=
  ((((reachable_loaded (by decide) (by decide)).after .step).after .step).after .step).after .step

/-- The snapshot of another machine lacks its last byte, so all parts are put back. -/
theorem insideRoutine_undone :
    (insideRoutine.restore drawing.snapshot.dropLast).2 = .error (.badData .truncatedScreen) ∧
      ((insideRoutine.restore drawing.snapshot.dropLast).2 = .ok () ∨
        ((insideRoutine.restore drawing.snapshot.dropLast).2 = .error .noMark ∨
          ∃ flaw, (insideRoutine.restore drawing.snapshot.dropLast).2 = .error (.badData flaw)) ∧
          ∃ m, (insideRoutine.restore drawing.snapshot.dropLast).1 =
              { insideRoutine with machine := m } ∧
            insideRoutine.machine.PutBack m) :=
  ⟨restore_dropLast reachable_insideRoutine reachable_drawing.inRange.isSnapshot,
    failed_restore_undone reachable_insideRoutine drawing.snapshot.dropLast⟩

end Emulator

end Chip8
