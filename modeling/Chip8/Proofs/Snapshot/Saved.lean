import Chip8.Proofs.Machine.Range
import Chip8.Proofs.Snapshot.Parts
import Chip8.Proofs.Snapshot.Registers

/-!
# What a snapshot says

A snapshot is a header of 24 bytes, the depth of the stack and its addresses, the two timers, the
memory, the size of the screen and its pixels. Where all numbers are in range, it determines the
saved part of a machine: two machines with the same snapshot are in the same state, up to what is
not saved.
-/

namespace Chip8.Machine

open Chip8.Snapshot

/-- Two machines that agree in all that a snapshot saves. -/
structure SameState (m m' : Machine) : Prop where
  v : m.v = m'.v
  index : m.index = m'.index
  pc : m.pc = m'.pc
  stack : m.stack = m'.stack
  delay : m.timers.delay = m'.timers.delay
  sound : m.timers.sound = m'.timers.sound
  cells : m.memory.cells = m'.memory.cells
  rows : m.screen.rows = m'.screen.rows

theorem SameState.symm {m m' : Machine} (h : SameState m m') : SameState m' m :=
  ⟨h.v.symm, h.index.symm, h.pc.symm, h.stack.symm, h.delay.symm, h.sound.symm, h.cells.symm,
    h.rows.symm⟩

/-! ## The bytes one after the other -/

/-- Mark, registers, index and program counter. -/
def header (m : Machine) : List UInt8 :=
  snapshotMark ++ m.v.toList ++ [highByte m.index, lowByte m.index, highByte m.pc, lowByte m.pc]

/-- The return addresses, the oldest first. -/
def savedStack (m : Machine) : List UInt8 := m.stack.reverse.flatMap savedAddress

/-- All that stands before the screen. -/
def beforeScreen (m : Machine) : List UInt8 :=
  m.header ++ byteOf m.stack.length :: (m.savedStack ++
    (byteOf m.timers.delay :: m.timers.sound :: m.memory.cells.toList))

theorem snapshot_eq (m : Machine) :
    m.snapshot = m.beforeScreen ++ 64 :: 32 :: Screen.bytesOf m.screen.pixels := by
  unfold snapshot saved savedRegisters beforeScreen header savedStack Timers.saved Memory.saved
  rw [Screen.saved_eq]
  simp only [List.append_assoc, List.cons_append, List.nil_append]
  rfl

theorem length_header (m : Machine) : m.header.length = 24 := by
  simp [header, snapshotMark]

theorem length_savedStack (m : Machine) : m.savedStack.length = 2 * m.stack.length := by
  have two (l : List Int) : (l.flatMap savedAddress).length = 2 * l.length := by
    induction l with
    | nil => rfl
    | cons a l ih =>
        rw [List.flatMap_cons, List.length_append, ih, List.length_cons]
        show 2 + 2 * l.length = _
        omega
  rw [savedStack, two, List.length_reverse]

theorem length_beforeScreen (m : Machine) :
    m.beforeScreen.length = 4123 + 2 * m.stack.length := by
  simp only [beforeScreen, List.length_append, List.length_cons, length_header, length_savedStack,
    Vector.length_toList]
  omega

theorem length_bytesOf_pixels (m : Machine) : (Screen.bytesOf m.screen.pixels).length = 2048 := by
  rw [Screen.bytesOf, List.length_map, Screen.length_pixels]

theorem length_snapshot (m : Machine) : m.snapshot.length = 6173 + 2 * m.stack.length := by
  rw [snapshot_eq, List.length_append, length_beforeScreen, List.length_cons, List.length_cons,
    length_bytesOf_pixels]
  omega

/-! ## The state behind the bytes -/

theorem byteOf_inj {a b : Int} (ha : 0 ≤ a ∧ a < 256) (hb : 0 ≤ b ∧ b < 256)
    (h : byteOf a = byteOf b) : a = b := by
  have residues := toNat_byteOf a
  rw [h, toNat_byteOf] at residues
  omega

theorem word_inj {w w' : UInt16} (high : highByte w = highByte w') (low : lowByte w = lowByte w') :
    w = w' := by
  rw [← wordOfBytes_highByte_lowByte w, high, low, wordOfBytes_highByte_lowByte]

/-- Addresses can be told from their bytes. -/
theorem addresses_of_bytes {l l' : List Int} (h : ∀ a ∈ l, 0 ≤ a ∧ a < 65536)
    (h' : ∀ a ∈ l', 0 ≤ a ∧ a < 65536)
    (same : l.flatMap savedAddress = l'.flatMap savedAddress) : l = l' := by
  induction l generalizing l' with
  | nil =>
      cases l' with
      | nil => rfl
      | cons b l' => cases same
  | cons a l ih =>
      cases l' with
      | nil => cases same
      | cons b l' =>
          rw [List.flatMap_cons, List.flatMap_cons] at same
          obtain ⟨first, rest⟩ := List.append_inj same rfl
          -- an address in range is its residue, and the two bytes tell that
          injection first with high low
          injection low with low _
          have residues := toNat_wordOf a
          rw [word_inj high low, toNat_wordOf] at residues
          have ha := h a List.mem_cons_self
          have hb := h' b List.mem_cons_self
          rw [ih (fun x hx => h x (List.mem_cons_of_mem a hx))
            (fun x hx => h' x (List.mem_cons_of_mem b hx)) rest, show a = b by omega]

/-- The snapshot of a machine whose numbers are in range determines its state. -/
theorem sameState_of_snapshot {m m' : Machine} (h : m.InRange) (h' : m'.InRange)
    (same : m.snapshot = m'.snapshot) : SameState m m' := by
  have depth : m.stack.length = m'.stack.length := by
    have := congrArg List.length same
    rw [length_snapshot, length_snapshot] at this
    omega
  -- with the same depth all parts have the same lengths, so they can be taken off one by one
  rw [snapshot_eq, snapshot_eq] at same
  obtain ⟨before, screen⟩ := List.append_inj same (by rw [length_beforeScreen, length_beforeScreen,
    depth])
  injection screen with _ screen
  injection screen with _ pixels
  obtain ⟨header, rest⟩ := List.append_inj before (by rw [length_header, length_header])
  injection rest with _ rest
  obtain ⟨stack, rest⟩ := List.append_inj rest (by rw [length_savedStack, length_savedStack, depth])
  injection rest with delay rest
  injection rest with sound rest
  obtain ⟨front, words⟩ := List.append_inj header (by simp)
  obtain ⟨-, v⟩ := List.append_inj front rfl
  injection words with indexHigh words
  injection words with indexLow words
  injection words with pcHigh words
  injection words with pcLow _
  exact {
    v := Vector.toList_inj.mp v
    index := word_inj indexHigh indexLow
    pc := word_inj pcHigh pcLow
    stack := List.reverse_inj.mp (addresses_of_bytes
      (fun a ha => h.addresses a (List.mem_reverse.mp ha))
      (fun a ha => h'.addresses a (List.mem_reverse.mp ha)) stack)
    delay := byteOf_inj h.delay h'.delay delay
    sound := sound
    cells := Vector.toList_inj.mp rest
    rows := Screen.rows_of_pixels (Screen.bytesOf_inj pixels) }

end Chip8.Machine
