import Chip8.Proofs.Emulator.Snapshots

/-!
# Flags that failures do not put back

A machine has two flags besides what it computes with: whether it waits for a key, and whether its
screen has to be shown. No snapshot has them, and an instruction starts by taking the first one
down. So they are what a failure can leave changed when everything else is as it was before.

A restore that is given up has the former parts restored in the end, and restored parts always come
with the same flags (`restoreKeepsFlags_iff`). A step that fails ends a wait if it has come as far
as its instruction; only a fetch that fails leaves the flag alone (`stepKeepsWait_iff`).
-/

namespace Chip8

open Chip8.Debug Chip8.Snapshot

namespace Machine

variable {m m' : Machine} {raw : List UInt8}

/-- Whether the machine waits for a key, and whether its screen has to be shown. -/
def flags (m : Machine) : Bool × Bool := (m.waitingForKey, m.screen.needsRefresh)

/-! ## Restoring -/

/-- A machine with restored parts does not wait, and its screen has to be shown. -/
theorem flags_of_restoreParts {data : List Int} {offset : Int}
    (h : m.restoreParts data offset = (m', .ok ())) : m'.flags = (false, true) := by
  obtain ⟨m₁, _, _, _, _, _, screen, _, registers, -, -, shown, -, rfl⟩ :=
    restoreParts_eq_ok_iff.mp h
  obtain ⟨_, _, _, _, _, -, -, -, -, -, rfl, -⟩ := restoreRegisters_eq_ok_iff.mp registers
  obtain ⟨-, -, -, fresh⟩ := Screen.restore_eq_ok_iff.mp shown
  obtain ⟨rfl, -⟩ := Prod.mk.inj fresh
  rfl

/-- Bytes without the mark are refused before anything is replaced. All others are refused when
some parts are replaced already, and then the parts from before are restored. -/
theorem InRange.flags_of_refused (h : m.InRange) (refused : (m.restore raw).2 ≠ .ok ()) :
    (m.restore raw).1.flags = if raw.take 4 = snapshotMark then (false, true) else m.flags := by
  unfold Machine.restore at refused ⊢
  by_cases mark : raw.take 4 = snapshotMark
  · rw [if_neg (not_not_intro mark)] at refused ⊢
    rw [if_pos mark]
    have half := restoreParts_frame m (numbers raw) 4
    rcases hp : m.restoreParts (numbers raw) 4 with ⟨m₁, flaw | ⟨⟩⟩ <;> rw [hp] at refused half
    · obtain ⟨m₂, undone, -⟩ := h.rollback half
      dsimp only
      rw [undone]
      exact flags_of_restoreParts undone
    · exact absurd rfl refused
  · rw [if_pos mark, if_neg mark]

/-! ## Steps -/

/-- A step that fails ends a wait, unless it fails to fetch its instruction. -/
theorem step_error_waiting {f : Fault} (h : m.step = (m', .error f)) :
    m'.waitingForKey = (m.waitingForKey && !m.fetch.isOk) := by
  rcases step_error_cases h with ⟨g, _, unfetched, rfl, -⟩ | ⟨w, g, fetched, -, rfl, -⟩
  · rw [unfetched]
    exact (Bool.and_true _).symm
  · rw [fetched]
    exact (Bool.and_false _).symm

end Machine

namespace Emulator

variable {e : Emulator} {raw : List UInt8}

/-! ## Restores that are given up -/

/-- A restore that is given up leaves both flags as they were. -/
def RestoreKeepsFlags (e : Emulator) (raw : List UInt8) : Prop :=
  (e.restore raw).2 ≠ .ok () → (e.restore raw).1.machine.flags = e.machine.flags

theorem flags_of_refused (r : Reachable e) (bad : ¬ IsSnapshot raw) :
    (e.restore raw).1.machine.flags =
      if raw.take 4 = snapshotMark then (false, true) else e.machine.flags := by
  apply r.inRange.flags_of_refused
  intro ok
  exact bad ((restore_ok_iff e raw).mp ok)

/-- **Restores and flags.** A restore that is given up leaves the flags as they were exactly if the
bytes did not even have the mark, or if the flags were what restored parts come with: no wait, and
a screen that has to be shown. Behind all other restores that are given up they have become so. -/
theorem restoreKeepsFlags_iff (r : Reachable e) (raw : List UInt8) :
    (e.RestoreKeepsFlags raw ↔
      IsSnapshot raw ∨ raw.take 4 ≠ snapshotMark ∨ e.machine.flags = (false, true)) ∧
    (¬ IsSnapshot raw → raw.take 4 = snapshotMark →
      (e.restore raw).1.machine.flags = (false, true)) := by
  constructor
  · unfold RestoreKeepsFlags
    rw [ne_eq, restore_ok_iff]
    by_cases good : IsSnapshot raw
    · exact iff_of_true (absurd good) (Or.inl good)
    · rw [or_iff_right good, flags_of_refused r good]
      by_cases mark : raw.take 4 = snapshotMark
      · rw [if_pos mark, or_iff_right (not_not_intro mark)]
        constructor
        · intro same
          exact (same good).symm
        · intro same _
          exact same.symm
      · rw [if_neg mark]
        exact iff_of_true (fun _ => rfl) (Or.inl mark)
  · intro bad mark
    rw [flags_of_refused r bad, if_pos mark]

/-- A program that waits for a key, after its screen was shown. -/
def waitingShown : Emulator := ((loaded .wrap 700 [0xF0, 0x0A]).after .step).after .takeFrame

theorem reachable_waitingShown : Reachable waitingShown :=
  ((reachable_loaded (by decide) (by decide)).after .step).after .takeFrame

/-- The mark by itself is too short for a snapshot. -/
theorem not_isSnapshot_mark : ¬ IsSnapshot snapshotMark := by
  rintro ⟨-, long, -⟩
  exact absurd long (by decide)

/-- The flags survive a list without the mark, but not the mark without a snapshot behind it. -/
theorem waitingShown_flags :
    waitingShown.machine.flags = (true, false) ∧ waitingShown.RestoreKeepsFlags [] ∧
      (waitingShown.restore snapshotMark).1.machine.flags = (false, true) := by
  have unmarked : ([] : List UInt8).take 4 ≠ snapshotMark := by decide
  refine ⟨by decide +kernel, ?_, ?_⟩
  · exact (restoreKeepsFlags_iff reachable_waitingShown []).1.mpr (Or.inr (Or.inl unmarked))
  · exact (restoreKeepsFlags_iff reachable_waitingShown snapshotMark).2 not_isSnapshot_mark rfl

/-- A mark without a snapshot behind it ends the wait, and asks for the screen to be shown. -/
theorem waitingShown_changed :
    Reachable waitingShown ∧ ¬ waitingShown.RestoreKeepsFlags snapshotMark := by
  refine ⟨reachable_waitingShown, ?_⟩
  intro kept
  have refused : (waitingShown.restore snapshotMark).2 ≠ .ok () := by
    rw [ne_eq, restore_ok_iff]
    exact not_isSnapshot_mark
  have same := kept refused
  have mark : snapshotMark.take 4 = snapshotMark := rfl
  rw [flags_of_refused reachable_waitingShown not_isSnapshot_mark, if_pos mark] at same
  have before : waitingShown.machine.flags = (true, false) := by decide +kernel
  rw [before] at same
  cases same

/-! ## Steps that fail -/

/-- A step that fails leaves the wait for a key as it was. -/
def StepKeepsWait (e : Emulator) : Prop :=
  e.step.1.reason = .fault → e.step.2.machine.waitingForKey = e.machine.waitingForKey

/-- A machine that waits for a key fetches an instruction that fails. -/
structure LosesWait (e : Emulator) : Prop where
  waiting : e.machine.waitingForKey = true
  fetched : ∃ w, e.machine.fetch = .ok w
  failed : e.step.1.reason = .fault

theorem failed_step_waiting (failed : e.step.1.reason = .fault) :
    e.step.2.machine.waitingForKey = (e.machine.waitingForKey && !e.machine.fetch.isOk) := by
  obtain ⟨m, f, stepped⟩ := (step_reason_eq_fault_iff e).mp failed
  rw [step_machine, stepped]
  exact Machine.step_error_waiting stepped

/-- **Failures and waits.** A step that fails leaves the wait as it was exactly if it did not get as
far as its instruction, or if there was no wait. A word without a meaning, a call or a return that
the stack refuses and a block that the memory refuses all end a wait; a fetch that is refused does
not. -/
theorem stepKeepsWait_iff (e : Emulator) : e.StepKeepsWait ↔ ¬ e.LosesWait := by
  constructor
  · rintro kept ⟨waiting, ⟨w, fetched⟩, failed⟩
    have ended := failed_step_waiting failed
    rw [kept failed, waiting, fetched] at ended
    exact Bool.noConfusion ended
  · intro still failed
    rw [failed_step_waiting failed]
    cases waiting : e.machine.waitingForKey with
    | false => rfl
    | true =>
        cases fetched : e.machine.fetch with
        | error f => rfl
        | ok w => exact absurd ⟨waiting, ⟨w, fetched⟩, failed⟩ still

/-- A program that waits for a key, with the index on the last byte of a memory that has no other
addresses, and that was sent elsewhere then. Behind the wait stand a word without a meaning, a
return and a store of two registers. -/
def waitingSent (pc : Int) : Emulator :=
  (((loaded .fault 700 [0xAF, 0xFF, 0xF0, 0x0A, 0x00, 0x00, 0x00, 0xEE, 0xF1, 0x55]).after
    .step).after .step).after (.setRegister .pc pc)

theorem reachable_waitingSent (pc : Int) : Reachable (waitingSent pc) :=
  (((reachable_loaded (by decide) (by decide)).after .step).after .step).after _

/-- All three of them fail, and end the wait. -/
theorem waitingSent_ended :
    (Reachable (waitingSent 0x204) ∧ ¬ (waitingSent 0x204).StepKeepsWait) ∧
      (Reachable (waitingSent 0x206) ∧ ¬ (waitingSent 0x206).StepKeepsWait) ∧
      (Reachable (waitingSent 0x208) ∧ ¬ (waitingSent 0x208).StepKeepsWait) := by
  have ended : ¬ (waitingSent 0x204).StepKeepsWait ∧ ¬ (waitingSent 0x206).StepKeepsWait ∧
      ¬ (waitingSent 0x208).StepKeepsWait := by
    unfold StepKeepsWait
    decide +kernel
  obtain ⟨unknown, underflow, block⟩ := ended
  exact ⟨⟨reachable_waitingSent _, unknown⟩, ⟨reachable_waitingSent _, underflow⟩,
    ⟨reachable_waitingSent _, block⟩⟩

end Emulator

end Chip8
