import Chip8.Machine.Snapshot
import Chip8.Proofs.Machine.Range
import Chip8.Proofs.Memory.Block
import Chip8.Proofs.Snapshot.Parts

/-!
# Sizes and numbers

What a machine in range looks like from outside: how many entries its parts have and which numbers
they are (`Sized`). Some of this is so by the types, the rest is `InRange`.

Inside, some numbers are made bytes and words of again: the delay timer when it is read, a return
address when it is jumped to, everything when it is saved. A residue is kept then, and for a
machine in range the residue is the number itself (`Exact`). So is a block of memory that was
loaded exactly as long as was asked for.
-/

namespace Chip8.Machine

variable {m : Machine}

structure Sized (m : Machine) : Prop where
  registers : m.v.toList.length = 16 ∧ ∀ b ∈ m.v.toList, b.toNat < 256
  index : m.index.toNat < 65536
  pc : m.pc.toNat < 65536
  stack : m.stack.length ≤ 16 ∧ ∀ a ∈ m.stack, 0 ≤ a ∧ a < 65536
  delay : 0 ≤ m.timers.delay ∧ m.timers.delay < 256
  sound : m.timers.sound.toNat < 256
  memory : m.memory.saved.length = 4096 ∧ ∀ b ∈ m.memory.saved, b.toNat < 256
  screen : ∃ numbers, m.screen.saved = 64 :: 32 :: numbers ∧
    numbers.length = 2048 ∧ ∀ n ∈ numbers, n = 0 ∨ n = 1

structure Exact (m : Machine) : Prop where
  delay : ((byteOf m.timers.delay).toNat : Int) = m.timers.delay
  returns : ∀ a ∈ m.stack, ((wordOf a).toNat : Int) = a
  depth : ((byteOf m.stack.length).toNat : Int) = m.stack.length
  screen : ∀ n ∈ m.screen.saved, ((byteOf n).toNat : Int) = n
  blocks : ∀ count bytes, m.loadBlock count = .ok bytes → bytes.length = count
  keys : ∀ key, m.keypad.first? = some key → (UInt8.ofNat key).toNat = key
  glyphs : ∀ b : UInt8, (UInt16.ofNat (glyphAddress b.toNat)).toNat = glyphAddress b.toNat
  timers : ∀ b : UInt8,
    (m.timers.setDelay b.toNat).delay = b.toNat ∧ (m.timers.setSound b.toNat).sound = b

/-! ## Residues -/

theorem byteOf_exact {n : Int} (h : 0 ≤ n) (h' : n < 256) : ((byteOf n).toNat : Int) = n := by
  rw [toNat_byteOf]
  exact Int.emod_eq_of_lt h h'

theorem wordOf_exact {n : Int} (h : 0 ≤ n) (h' : n < 65536) : ((wordOf n).toNat : Int) = n := by
  rw [toNat_wordOf]
  exact Int.emod_eq_of_lt h h'

theorem loadBlock_length {count : Nat} {bytes : List UInt8} (h : m.loadBlock count = .ok bytes) :
    bytes.length = count := by
  unfold loadBlock at h
  cases hc : m.memory.policy.check m.index.toNat count with
  | error f =>
      rw [hc] at h
      cases h
  | ok =>
      rw [hc] at h
      have read : bytes = m.memory.blockAt m.index.toNat count :=
        Except.ok.inj (h.symm.trans (Memory.readBytes_of_check hc))
      rw [read, Memory.length_blockAt]

/-! ## Machines in range -/

theorem saved_screen (s : Screen 64 32) :
    ∃ numbers, s.saved = 64 :: 32 :: numbers ∧
      numbers.length = 2048 ∧ ∀ n ∈ numbers, n = 0 ∨ n = 1 := by
  refine ⟨_, rfl, ?_, ?_⟩
  · rw [List.length_map, Screen.length_pixels]
  · intro n hn
    obtain ⟨p, -, rfl⟩ := List.mem_map.mp hn
    cases p with
    | false => exact Or.inl rfl
    | true => exact Or.inr rfl

namespace InRange

theorem sized (h : m.InRange) : m.Sized where
  registers := ⟨Vector.length_toList, fun b _ => b.toNat_lt⟩
  index := m.index.toNat_lt
  pc := m.pc.toNat_lt
  stack := ⟨h.depth, h.addresses⟩
  delay := h.delay
  sound := m.timers.sound.toNat_lt
  memory := ⟨Vector.length_toList, fun b _ => b.toNat_lt⟩
  screen := saved_screen m.screen

theorem exact (h : m.InRange) : m.Exact where
  delay := byteOf_exact h.delay.1 h.delay.2
  returns a ha := wordOf_exact (h.addresses a ha).1 (h.addresses a ha).2
  depth := by
    have depth := h.depth
    unfold stackDepth at depth
    exact byteOf_exact (by omega) (by omega)
  screen n hn := by
    obtain ⟨numbers, saved, -, bits⟩ := saved_screen m.screen
    rw [saved, List.mem_cons, List.mem_cons] at hn
    rcases hn with rfl | rfl | hn
    · rfl
    · rfl
    · rcases bits n hn with rfl | rfl
      · rfl
      · rfl
  blocks _ _ := loadBlock_length
  keys key _ := by
    have := key.isLt
    rw [UInt8.toNat_ofNat']
    omega
  glyphs b := by
    rw [UInt16.toNat_ofNat', glyphAddress, glyphStart]
    omega
  timers b := by
    have byte := b.toNat_lt
    constructor
    · exact Int.emod_eq_of_lt (by omega) (by omega)
    · rw [Timers.setSound, Timers.tell_sound]
      exact byteOf_toNat b

end InRange

end Chip8.Machine
