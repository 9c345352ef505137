import Chip8.Proofs.Snapshot.Saved

/-!
# The format of a snapshot

Which lists of bytes are snapshots does not depend on the machine that they are restored to, and
neither does what that machine saves afterwards: the same bytes, with the pixels tidied up.
-/

namespace Chip8

open Chip8.Snapshot

/-- A snapshot has its mark, a stack that is not too deep, the size of the screen where it is
expected behind the stack, and the right length. -/
def IsSnapshot (raw : List UInt8) : Prop :=
  [0x43, 0x38, 0x53, 0x01] <+: raw ∧ 25 ≤ raw.length ∧
    ∃ d : UInt8, raw[24]? = some d ∧ d.toNat ≤ 16 ∧ raw.length = 6173 + 2 * d.toNat ∧
      raw[4123 + 2 * d.toNat]? = some 64 ∧ raw[4124 + 2 * d.toNat]? = some 32

/-- The last 2048 bytes, those of the pixels, made tidy. -/
def cleaned (raw : List UInt8) : List UInt8 :=
  raw.take (raw.length - 2048) ++ tidy (raw.drop (raw.length - 2048))

namespace Machine

variable {raw : List UInt8}

/-! ## All parts -/

/-- Nothing was replaced but what is saved, the key wait, what the listener was told and whether
the screen has to be shown. -/
def Overwritten (m m' : Machine) : Prop :=
  ∃ v index pc stack waiting delay sound told cells screen,
    m' = { m with
      v := v
      index := index
      pc := pc
      stack := stack
      waitingForKey := waiting
      timers := { m.timers with delay := delay, sound := sound, told := told }
      memory := { m.memory with cells := cells }
      screen := screen }

/-- However far restoring gets, it replaces nothing else. -/
theorem restoreParts_frame (m : Machine) (data : List Int) (offset : Int) :
    Overwritten m (m.restoreParts data offset).1 := by
  obtain ⟨v, index, pc, stack, waiting, registers⟩ := restoreRegisters_frame m data offset
  unfold restoreParts
  rcases hr : m.restoreRegisters data offset with ⟨m₁, e | a⟩
  · rw [hr] at registers
    cases registers
    exact ⟨_, _, _, _, _, _, _, _, _, _, rfl⟩
  · rw [hr] at registers
    cases registers
    dsimp only
    obtain ⟨delay, sound, told, timers⟩ := Timers.restore_frame m.timers data (offset + a)
    rcases ht : m.timers.restore data (offset + a) with ⟨t, e | b⟩
    · rw [ht] at timers
      cases timers
      exact ⟨_, _, _, _, _, _, _, _, _, _, rfl⟩
    · rw [ht] at timers
      cases timers
      dsimp only
      split
      · exact ⟨_, _, _, _, _, _, _, _, _, _, rfl⟩
      · rename_i memory _ hm
        obtain ⟨cells, contents⟩ := Memory.restore_frame hm
        cases contents
        split
        · exact ⟨_, _, _, _, _, _, _, _, _, _, rfl⟩
        · exact ⟨_, _, _, _, _, _, _, _, _, _, rfl⟩

/-- What restoring takes from the data, part after part. -/
theorem restoreParts_eq_ok_iff {m m' : Machine} {data : List Int} {offset : Int} :
    m.restoreParts data offset = (m', .ok ()) ↔
      ∃ m₁ a timers b memory c screen d,
        m.restoreRegisters data offset = (m₁, .ok a) ∧
        m₁.timers.restore data (offset + a) = (timers, .ok b) ∧
        m₁.memory.restore data (offset + a + b) = .ok (memory, c) ∧
        m₁.screen.restore data (offset + a + b + c) = .ok (screen, d) ∧
        (data.length : Int) = offset + a + b + c + d ∧
        m' = { m₁ with timers := timers, memory := memory, screen := screen } := by
  unfold restoreParts
  constructor
  · intro h
    rcases hr : m.restoreRegisters data offset with ⟨m₁, e | a⟩ <;> rw [hr] at h
    · cases h
    · dsimp only at h
      rcases ht : m₁.timers.restore data (offset + a) with ⟨timers, e | b⟩ <;> rw [ht] at h
      · cases h
      · dsimp only at h
        rcases hm : m₁.memory.restore data (offset + a + b) with e | ⟨memory, c⟩ <;> rw [hm] at h
        · cases h
        · dsimp only at h
          rcases hs : m₁.screen.restore data (offset + a + b + c) with e | ⟨screen, d⟩ <;>
            rw [hs] at h
          · cases h
          · dsimp only at h
            split at h
            · rename_i left
              cases h
              exact ⟨m₁, a, timers, b, memory, c, screen, d, rfl, ht, hm, hs, by omega, rfl⟩
            · cases h
  · rintro ⟨m₁, a, timers, b, memory, c, screen, d, hr, ht, hm, hs, left, rfl⟩
    rw [hr]
    dsimp only
    rw [ht]
    dsimp only
    rw [hm]
    dsimp only
    rw [hs]
    dsimp only
    rw [if_pos (by omega)]

/-- A bad screen is found when all other parts are replaced. -/
theorem restoreParts_of_screen_error {m m₁ : Machine} {data : List Int} {offset a b c : Int}
    {timers : Timers} {memory : Memory} {e : Flaw}
    (hr : m.restoreRegisters data offset = (m₁, .ok a))
    (ht : m₁.timers.restore data (offset + a) = (timers, .ok b))
    (hm : m₁.memory.restore data (offset + a + b) = .ok (memory, c))
    (hs : m₁.screen.restore data (offset + a + b + c) = .error e) :
    m.restoreParts data offset = ({ m₁ with timers := timers, memory := memory }, .error e) := by
  rw [restoreParts, hr]
  dsimp only
  rw [ht]
  dsimp only
  rw [hm]
  dsimp only
  rw [hs]

/-! Where the parts end behind a stack of `d` addresses, as their sizes add up to it. -/

theorem registers_end (d : Nat) : (4 : Int) + (21 + 2 * d) = (25 + 2 * d : Nat) := by omega

theorem timers_end (d : Nat) : ((25 + 2 * d : Nat) : Int) + 2 = (27 + 2 * d : Nat) := by omega

theorem memory_end (d : Nat) : ((27 + 2 * d : Nat) : Int) + 4096 = (4123 + 2 * d : Nat) := by omega

/-- All parts stand behind the mark, one after the other, and nothing behind them. -/
structure HasParts (raw : List UInt8) : Prop where
  registers : RegistersAt raw 4
  screen : Screen.FitsAt 64 32 raw (4123 + 2 * depthAt raw 4)
  length : raw.length = 6173 + 2 * depthAt raw 4

/-- The machine with all parts that stand behind the mark. -/
def withParts (m : Machine) (raw : List UInt8) (told : List Bool) : Machine :=
  let d := depthAt raw 4
  { m.withRegistersAt raw 4 with
    timers := m.timers.withBytesAt raw (25 + 2 * d) told
    memory := m.memory.withBytesAt raw (27 + 2 * d)
    screen := .ofBytesAt 64 32 raw (4123 + 2 * d) }

/-- Registers, timers and memory are replaced if they are there, whatever stands behind them. -/
theorem restore_front (m : Machine) (there : RegistersAt raw 4)
    (room : 4123 + 2 * depthAt raw 4 ≤ raw.length) :
    ∃ told,
      m.restoreRegisters (numbers raw) 4 =
        (m.withRegistersAt raw 4, .ok (21 + 2 * depthAt raw 4 : Int)) ∧
      (m.withRegistersAt raw 4).timers.restore (numbers raw) (4 + (21 + 2 * depthAt raw 4 : Int)) =
        (m.timers.withBytesAt raw (25 + 2 * depthAt raw 4) told, .ok 2) ∧
      (m.withRegistersAt raw 4).memory.restore (numbers raw)
          (4 + (21 + 2 * depthAt raw 4 : Int) + 2) =
        .ok (m.memory.withBytesAt raw (27 + 2 * depthAt raw 4), 4096) := by
  have depth : depthAt raw 4 ≤ 16 := there.depth
  have near : 8192 ≤ farthest := by decide
  obtain ⟨told, timers⟩ := Timers.restore_numbers m.timers
    (show 25 + 2 * depthAt raw 4 + 1 < raw.length by omega) (by omega)
  have memory := Memory.restore_numbers m.memory
    (show 27 + 2 * depthAt raw 4 + 4096 ≤ raw.length by omega)
  refine ⟨told, restoreRegisters_numbers m there (show 4 + 53 ≤ farthest by decide), ?_, ?_⟩
  · rw [registers_end, withRegistersAt_timers, timers]
  · rw [registers_end, timers_end, withRegistersAt_memory, memory]

theorem screen_place (d : Nat) :
    (4 : Int) + (21 + 2 * d) + 2 + 4096 = (4123 + 2 * d : Nat) := by
  rw [registers_end, timers_end, memory_end]

theorem restoreParts_numbers (m : Machine) (h : HasParts raw) :
    ∃ told, m.restoreParts (numbers raw) 4 = (m.withParts raw told, .ok ()) := by
  have depth : depthAt raw 4 ≤ 16 := h.registers.depth
  have length := h.length
  have near : 8192 ≤ farthest := by decide
  obtain ⟨told, registers, timers, memory⟩ := restore_front m h.registers (by omega)
  have screen := Screen.restore_numbers m.screen h.screen (by omega)
  refine ⟨told, restoreParts_eq_ok_iff.mpr ⟨m.withRegistersAt raw 4, 21 + 2 * depthAt raw 4,
    m.timers.withBytesAt raw (25 + 2 * depthAt raw 4) told, 2,
    m.memory.withBytesAt raw (27 + 2 * depthAt raw 4), 4096,
    .ofBytesAt 64 32 raw (4123 + 2 * depthAt raw 4), 2 + 64 * 32, registers, timers, memory,
    ?_, ?_, rfl⟩⟩
  · rw [screen_place, withRegistersAt_screen, screen]
    rfl
  · rw [length_numbers, length]
    omega

theorem getD_dropLast {k : Nat} (inside : k + 1 < raw.length) :
    raw.dropLast.getD k 0 = raw.getD k 0 := by
  rw [List.getD_eq_getElem?_getD, List.getElem?_dropLast, if_pos (by omega),
    ← List.getD_eq_getElem?_getD]

/-- Without its last byte a snapshot is found bad in its last part. By then registers, timers and
memory are replaced. -/
theorem restoreParts_dropLast (m : Machine) (h : HasParts raw) :
    ∃ told, m.restoreParts (numbers raw.dropLast) 4 =
      ({ m.withParts raw.dropLast told with screen := m.screen }, .error .truncatedScreen) := by
  have depth : depthAt raw 4 ≤ 16 := h.registers.depth
  have length := h.length
  have near : 8192 ≤ farthest := by decide
  have left : raw.dropLast.length + 1 = raw.length := by
    rw [List.length_dropLast]
    omega
  have same : depthAt raw.dropLast 4 = depthAt raw 4 := by
    rw [depthAt, getD_dropLast (by omega), depthAt]
  have there : RegistersAt raw.dropLast 4 := ⟨same ▸ h.registers.depth, by omega⟩
  have columns : (raw.dropLast.getD (4123 + 2 * depthAt raw.dropLast 4) 0).toNat = 64 := by
    rw [same, getD_dropLast (by omega)]
    exact h.screen.columns
  have lines : (raw.dropLast.getD (4123 + 2 * depthAt raw.dropLast 4 + 1) 0).toNat = 32 := by
    rw [same, getD_dropLast (by omega)]
    exact h.screen.lines
  have screen := Screen.restore_of_short m.screen columns lines (by omega) (by omega) (by omega)
  obtain ⟨told, registers, timers, memory⟩ := restore_front m there (by omega)
  have replaced : { m.withParts raw.dropLast told with screen := m.screen } =
      { m.withRegistersAt raw.dropLast 4 with
        timers := m.timers.withBytesAt raw.dropLast (25 + 2 * depthAt raw.dropLast 4) told
        memory := m.memory.withBytesAt raw.dropLast (27 + 2 * depthAt raw.dropLast 4) } := rfl
  refine ⟨told, ?_⟩
  rw [replaced]
  refine restoreParts_of_screen_error registers timers memory ?_
  rw [screen_place, withRegistersAt_screen, screen]

theorem hasParts_of_restoreParts {m m' : Machine}
    (h : m.restoreParts (numbers raw) 4 = (m', .ok ())) : HasParts raw := by
  obtain ⟨m₁, a, timers, b, memory, c, screen, d, hr, ht, hm, hs, left, -⟩ :=
    restoreParts_eq_ok_iff.mp h
  have near : 8192 ≤ farthest := by decide
  have registers : RegistersAt raw 4 := registersAt_of_restore hr
  have depth : depthAt raw 4 ≤ 16 := registers.depth
  -- now the sizes of the parts are known, and with them the places
  have hr' := restoreRegisters_numbers m registers (by omega)
  obtain ⟨-, ha⟩ := Prod.mk.inj (hr.symm.trans hr')
  obtain rfl : a = 21 + 2 * depthAt raw 4 := Except.ok.inj ha
  obtain ⟨-, -, -, -, -, rfl⟩ := Timers.restore_eq_ok_iff.mp ht
  rw [registers_end, timers_end] at hm hs
  have hm' := Memory.restore_numbers m₁.memory (Memory.le_length_of_restore hm)
  obtain ⟨-, rfl⟩ := Prod.mk.inj (Except.ok.inj (hm.symm.trans hm'))
  rw [memory_end] at hs
  have fits := Screen.fitsAt_of_restore hs
  have hs' := Screen.restore_numbers m₁.screen fits (by omega)
  obtain ⟨-, rfl⟩ := Prod.mk.inj (Except.ok.inj (hs.symm.trans hs'))
  rw [length_numbers] at left
  exact ⟨registers, fits, by omega⟩

/-- What was restored is saved as the same bytes, the pixels made tidy. -/
theorem snapshot_withParts (m : Machine) (told : List Bool) (h : HasParts raw)
    (mark : raw.take 4 = snapshotMark) : (m.withParts raw told).snapshot = cleaned raw := by
  have length := h.length
  have registers : (m.withParts raw told).savedRegisters =
      slice raw 4 (21 + 2 * depthAt raw 4) := by
    rw [← savedRegisters_withRegistersAt m h.registers]
    simp only [savedRegisters, withParts]
  have timers : (m.withParts raw told).timers.saved = slice raw (25 + 2 * depthAt raw 4) 2 :=
    Timers.saved_withBytesAt m.timers told (by omega)
  have memory : (m.withParts raw told).memory.saved = slice raw (27 + 2 * depthAt raw 4) 4096 :=
    Memory.saved_withBytesAt m.memory (by omega)
  have screen : (m.withParts raw told).screen.saved.map byteOf = _ :=
    Screen.saved_ofBytesAt h.screen
  have pixels : slice raw (4123 + 2 * depthAt raw 4 + 2) (64 * 32) =
      raw.drop (raw.length - 2048) := by
    rw [slice_eq_drop (by omega), show raw.length - 2048 = 4123 + 2 * depthAt raw 4 + 2 by omega]
  have front : raw.take 4 ++ slice raw 4 (4121 + 2 * depthAt raw 4) =
      raw.take (raw.length - 2048) := by
    rw [slice, ← List.take_add, show raw.length - 2048 = 4 + (4121 + 2 * depthAt raw 4) by omega]
  have parts : slice raw 4 (21 + 2 * depthAt raw 4) ++ slice raw (25 + 2 * depthAt raw 4) 2 ++
      slice raw (27 + 2 * depthAt raw 4) 4096 ++ slice raw (4123 + 2 * depthAt raw 4) 2 =
      slice raw 4 (4121 + 2 * depthAt raw 4) := by
    rw [slice_join raw (show 25 + 2 * depthAt raw 4 = 4 + (21 + 2 * depthAt raw 4) by omega) rfl,
      slice_join raw (show 27 + 2 * depthAt raw 4 = 4 + (21 + 2 * depthAt raw 4 + 2) by omega) rfl]
    exact slice_join raw (by omega) (by omega)
  calc (m.withParts raw told).snapshot
      = snapshotMark ++ (slice raw 4 (21 + 2 * depthAt raw 4) ++
          slice raw (25 + 2 * depthAt raw 4) 2 ++ slice raw (27 + 2 * depthAt raw 4) 4096 ++
          (slice raw (4123 + 2 * depthAt raw 4) 2 ++
            tidy (slice raw (4123 + 2 * depthAt raw 4 + 2) (64 * 32)))) := by
        rw [snapshot, saved, registers, timers, memory, screen]
    _ = snapshotMark ++ slice raw 4 (4121 + 2 * depthAt raw 4) ++
          tidy (raw.drop (raw.length - 2048)) := by
        rw [← List.append_assoc (slice raw 4 _ ++ _ ++ _), parts, pixels, List.append_assoc]
    _ = cleaned raw := by rw [← mark, front, cleaned]

theorem InRange.withParts (m : Machine) (told : List Bool) (h : HasParts raw) :
    (m.withParts raw told).InRange := by
  refine ⟨?_, fun a ha => word_of_mem_addressesAt (List.mem_reverse.mp ha), ?_⟩
  · show List.length (List.reverse _) ≤ stackDepth
    rw [List.length_reverse, length_addressesAt]
    exact h.registers.depth
  · show 0 ≤ ((raw.getD _ 0).toNat : Int) ∧ ((raw.getD _ 0).toNat : Int) < 256
    have := (raw.getD (25 + 2 * depthAt raw 4) 0).toNat_lt
    omega

/-! ## Which lists of bytes are snapshots -/

theorem toNat_getD {place n : Nat} (b : UInt8) (hb : b.toNat = n) :
    raw[place]? = some b ↔ place < raw.length ∧ (raw.getD place 0).toNat = n := by
  constructor
  · intro h
    obtain ⟨inside, _⟩ := List.getElem?_eq_some_iff.mp h
    rw [List.getD_eq_getElem?_getD, h]
    exact ⟨inside, hb⟩
  · rintro ⟨inside, same⟩
    rw [List.getD_eq_getElem _ _ inside] at same
    rw [List.getElem?_eq_getElem inside, UInt8.toNat_inj.mp (same.trans hb.symm)]

theorem isSnapshot_iff : IsSnapshot raw ↔ raw.take 4 = snapshotMark ∧ HasParts raw := by
  unfold IsSnapshot
  rw [List.prefix_iff_eq_take, eq_comm (a := _ :: _)]
  refine and_congr Iff.rfl ⟨?_, fun h => ?_⟩
  · rintro ⟨-, d, hd, depth, length, columns, lines⟩
    obtain ⟨inside, same⟩ : 24 < raw.length ∧ depthAt raw 4 = d.toNat := (toNat_getD d rfl).mp hd
    rw [← same] at depth length columns lines
    rw [show 4124 + 2 * depthAt raw 4 = 4123 + 2 * depthAt raw 4 + 1 by omega] at lines
    obtain ⟨-, columns⟩ := (toNat_getD 64 rfl).mp columns
    obtain ⟨-, lines⟩ := (toNat_getD 32 rfl).mp lines
    exact ⟨⟨depth, by omega⟩, ⟨columns, lines, by omega⟩, length⟩
  · have length := h.length
    have lines := h.screen.lines
    rw [show 4123 + 2 * depthAt raw 4 + 1 = 4124 + 2 * depthAt raw 4 by omega] at lines
    have inside : 24 < raw.length := by omega
    have inside' : 4123 + 2 * depthAt raw 4 < raw.length := by omega
    have inside'' : 4124 + 2 * depthAt raw 4 < raw.length := by omega
    exact ⟨by omega, raw.getD 24 0, (toNat_getD _ rfl).mpr ⟨inside, rfl⟩, h.registers.depth, length,
      (toNat_getD 64 rfl).mpr ⟨inside', h.screen.columns⟩,
      (toNat_getD 32 rfl).mpr ⟨inside'', lines⟩⟩

/-! ## Restoring -/

theorem restore_of_isSnapshot (m : Machine) (h : IsSnapshot raw) :
    ∃ told, m.restore raw = (m.withParts raw told, .ok ()) := by
  obtain ⟨mark, parts⟩ := isSnapshot_iff.mp h
  obtain ⟨told, restored⟩ := restoreParts_numbers m parts
  refine ⟨told, ?_⟩
  rw [restore, if_neg (not_not_intro mark), restored]

theorem isSnapshot_of_restore {m m' : Machine} (h : m.restore raw = (m', .ok ())) :
    IsSnapshot raw := by
  unfold restore at h
  by_cases mark : raw.take 4 = snapshotMark
  · rw [if_neg (not_not_intro mark)] at h
    rcases hp : m.restoreParts (numbers raw) 4 with ⟨m₁, e | ⟨⟩⟩
    · rw [hp] at h
      dsimp only at h
      split at h <;> cases h
    · exact isSnapshot_iff.mpr ⟨mark, hasParts_of_restoreParts hp⟩
  · rw [if_pos mark] at h
    cases h

/-- A list of bytes is restored exactly if it is a snapshot, whatever the machine. -/
theorem restore_ok_iff (m : Machine) (raw : List UInt8) :
    (m.restore raw).2 = .ok () ↔ IsSnapshot raw := by
  constructor
  · intro h
    exact isSnapshot_of_restore (Prod.ext rfl h)
  · intro h
    obtain ⟨told, restored⟩ := restore_of_isSnapshot m h
    rw [restored]

/-- What was restored is in range, and is saved as the same bytes but for the pixels. -/
theorem snapshot_of_restore {m m' : Machine} (h : m.restore raw = (m', .ok ())) :
    m'.InRange ∧ m'.snapshot = cleaned raw := by
  have parts := isSnapshot_of_restore h
  obtain ⟨told, restored⟩ := restore_of_isSnapshot m parts
  obtain ⟨rfl, -⟩ := Prod.mk.inj (h.symm.trans restored)
  obtain ⟨mark, parts⟩ := isSnapshot_iff.mp parts
  exact ⟨InRange.withParts m told parts, snapshot_withParts m told parts mark⟩

/-! ## Restoring what was saved -/

theorem InRange.isSnapshot {m : Machine} (h : m.InRange) : IsSnapshot m.snapshot := by
  have depth : (byteOf m.stack.length).toNat = m.stack.length := by
    have := h.depth
    have := toNat_byteOf m.stack.length
    unfold stackDepth at *
    omega
  have before := length_beforeScreen m
  have length := length_snapshot m
  refine ⟨⟨_, rfl⟩, by omega, byteOf m.stack.length, ?_, ?_⟩
  · have header := length_header m
    rw [snapshot_eq, beforeScreen, List.append_assoc, List.getElem?_append_right (by omega), header]
    rfl
  · rw [depth]
    refine ⟨h.depth, length, ?_, ?_⟩
    · rw [snapshot_eq, List.getElem?_append_right (by omega), before, Nat.sub_self]
      rfl
    · rw [snapshot_eq, List.getElem?_append_right (by omega), before,
        show 4124 + 2 * m.stack.length - (4123 + 2 * m.stack.length) = 1 by omega]
      rfl

/-- The pixels of a snapshot are tidy. -/
theorem cleaned_snapshot (m : Machine) : cleaned m.snapshot = m.snapshot := by
  have whole : m.snapshot = m.beforeScreen ++ [64, 32] ++ Screen.bytesOf m.screen.pixels := by
    rw [snapshot_eq, List.append_assoc]
    rfl
  have front : m.snapshot.length - 2048 = (m.beforeScreen ++ [64, 32]).length := by
    rw [whole, List.length_append, length_bytesOf_pixels, Nat.add_sub_cancel]
  rw [cleaned, front, whole, List.take_left, List.drop_left, Screen.tidy_bytesOf]

/-- A snapshot of one machine can be restored to any other, which is in the same state then. -/
theorem InRange.round_trip {m : Machine} (h : m.InRange) (m' : Machine) :
    ∃ restored, m'.restore m.snapshot = (restored, .ok ()) ∧ restored.InRange ∧
      restored.snapshot = m.snapshot ∧ SameState restored m := by
  obtain ⟨told, ok⟩ := restore_of_isSnapshot m' h.isSnapshot
  obtain ⟨range, same⟩ := snapshot_of_restore ok
  rw [cleaned_snapshot] at same
  exact ⟨_, ok, range, same, sameState_of_snapshot range h same⟩

end Machine

end Chip8
