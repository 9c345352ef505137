import Chip8.Proofs.Snapshot.Format

/-!
# Restoring that is given up

Data can turn out to be bad in any part, when the parts before it are replaced already. Whatever
was replaced by then is covered by the frame of `restoreParts`. The snapshot that was taken before
is always one that can be restored, and restoring it brings the former state back. Only three
things may differ afterwards, since no snapshot has them: the key wait, what the listener was told
of the tone in between, and whether the screen has to be shown.
-/

namespace Chip8.Machine

open Chip8.Snapshot

variable {raw : List UInt8} {m m' : Machine}

/-- Two machines that agree in everything but the key wait, what the listener was told and whether
the screen has to be shown. -/
def PutBack (m m' : Machine) : Prop :=
  ∃ waiting told refresh,
    m' = { m with
      waitingForKey := waiting
      timers := { m.timers with told := told }
      screen := { m.screen with needsRefresh := refresh } }

theorem PutBack.refl (m : Machine) : PutBack m m := ⟨_, _, _, rfl⟩

theorem PutBack.inRange (p : PutBack m m') (h : m.InRange) : m'.InRange := by
  obtain ⟨_, _, _, rfl⟩ := p
  exact h.of_eq rfl rfl

/-- Where only saved parts were replaced, and are the same again, all is as before. -/
theorem SameState.putBack (h : SameState m' m) (o : Overwritten m m') : PutBack m m' := by
  obtain ⟨v, index, pc, stack, waiting, delay, sound, told, cells, screen, rfl⟩ := o
  have hv : v = m.v := h.v
  have hi : index = m.index := h.index
  have hp : pc = m.pc := h.pc
  have hs : stack = m.stack := h.stack
  have hd : delay = m.timers.delay := h.delay
  have ht : sound = m.timers.sound := h.sound
  have hc : cells = m.memory.cells := h.cells
  have hr : screen = { m.screen with needsRefresh := screen.needsRefresh } :=
    congrArg (fun rows => (⟨rows, screen.needsRefresh⟩ : Screen 64 32)) h.rows
  refine ⟨waiting, told, screen.needsRefresh, ?_⟩
  rw [hv, hi, hp, hs, hd, ht, hc, hr]

theorem Overwritten.trans {m'' : Machine} (o : Overwritten m m') (o' : Overwritten m' m'') :
    Overwritten m m'' := by
  obtain ⟨_, _, _, _, _, _, _, _, _, _, rfl⟩ := o
  obtain ⟨_, _, _, _, _, _, _, _, _, _, rfl⟩ := o'
  exact ⟨_, _, _, _, _, _, _, _, _, _, rfl⟩

/-- What restoring parts keeps, however far it gets, is kept by restoring a snapshot, also when it
is given up and the parts are restored a second time. -/
theorem restore_keeps {P : Machine → Prop} (h : P m) (raw : List UInt8)
    (parts : ∀ m data offset, P m → P (m.restoreParts data offset).1) : P (m.restore raw).1 := by
  unfold restore
  split
  · exact h
  · have half := parts m (numbers raw) 4 h
    rcases hp : m.restoreParts (numbers raw) 4 with ⟨m₁, e | ⟨⟩⟩ <;> rw [hp] at half
    · have back := parts m₁ (numbers m.snapshot) 4 half
      dsimp only
      rcases hb : m₁.restoreParts (numbers m.snapshot) 4 with ⟨m₂, e' | ⟨⟩⟩ <;> rw [hb] at back
      · exact back
      · exact back
    · exact half

/-- Restoring replaces nothing but what is saved, even if it is given up. -/
theorem restore_overwrites (m : Machine) (raw : List UInt8) : Overwritten m (m.restore raw).1 := by
  have start : Overwritten m m := ⟨_, _, _, _, _, _, _, _, _, _, rfl⟩
  exact restore_keeps start raw fun m₁ data offset half =>
    half.trans (restoreParts_frame m₁ data offset)

/-- The snapshot of a machine undoes whatever a restore had replaced. -/
theorem InRange.rollback (h : m.InRange) {m₁ : Machine} (half : Overwritten m m₁) :
    ∃ m₂, m₁.restoreParts (numbers m.snapshot) 4 = (m₂, .ok ()) ∧ PutBack m m₂ := by
  -- nothing is asked of `m₁` here: every part that `half` may have replaced is replaced again
  obtain ⟨mark, parts⟩ := isSnapshot_iff.mp h.isSnapshot
  obtain ⟨told, restored⟩ := restoreParts_numbers m₁ parts
  have whole := restoreParts_frame m₁ (numbers m.snapshot) 4
  rw [restored] at whole
  have same := (snapshot_withParts m₁ told parts mark).trans (cleaned_snapshot m)
  have state := sameState_of_snapshot (InRange.withParts m₁ told parts) h same
  exact ⟨_, restored, state.putBack (half.trans whole)⟩

/-- A list of bytes is restored, or else it is refused as a snapshot and the machine is put back;
putting it back never fails. -/
theorem InRange.restore (h : m.InRange) (raw : List UInt8) :
    (m.restore raw).2 = .ok () ∨
      ((m.restore raw).2 = .error .noMark ∨ ∃ flaw, (m.restore raw).2 = .error (.badData flaw)) ∧
        PutBack m (m.restore raw).1 := by
  unfold Machine.restore
  by_cases mark : raw.take 4 = snapshotMark
  · rw [if_neg (not_not_intro mark)]
    have half := restoreParts_frame m (numbers raw) 4
    rcases hp : m.restoreParts (numbers raw) 4 with ⟨m₁, e | ⟨⟩⟩
    · rw [hp] at half
      obtain ⟨m₂, undone, back⟩ := h.rollback half
      dsimp only
      rw [undone]
      exact Or.inr ⟨Or.inr ⟨e, rfl⟩, back⟩
    · exact Or.inl rfl
  · rw [if_pos mark]
    exact Or.inr ⟨Or.inl rfl, PutBack.refl m⟩

/-- Without its last byte a snapshot is refused when only the screen is left to be replaced. -/
theorem InRange.restore_dropLast (h : m.InRange) (s : IsSnapshot raw) :
    (m.restore raw.dropLast).2 = .error (.badData .truncatedScreen) := by
  obtain ⟨mark, parts⟩ := isSnapshot_iff.mp s
  have length := parts.length
  have marked : raw.dropLast.take 4 = snapshotMark := by
    rw [List.dropLast_eq_take, List.take_take, Nat.min_eq_left (by omega), mark]
  obtain ⟨told, stopped⟩ := restoreParts_dropLast m parts
  have half := restoreParts_frame m (numbers raw.dropLast) 4
  rw [stopped] at half
  obtain ⟨m₂, undone, -⟩ := h.rollback half
  rw [Machine.restore, if_neg (not_not_intro marked), stopped]
  dsimp only
  rw [undone]

end Chip8.Machine
