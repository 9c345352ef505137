import Chip8.Proofs.Emulator.Host
import Chip8.Proofs.Memory.Refused

/-!
# Block writes of a host

An instruction has its block checked before it writes any byte of it. A host that writes a block
itself does not: its write goes through the bytes one after the other and ends at the first address
that is refused. The bytes before that address are written by then, and stay. So a write that is
refused leaves the memory as it was only if there are no such bytes, or if all of them were in
their cells already (`refusedWriteKept_iff`).
-/

namespace Chip8

open Policy (FirstOutside firstOutside_iff)

/-! ## Overwriting with what is there -/

/-- Bytes that are in their cells already change nothing. -/
theorem Cells.overwrite_eq_self {cells : Cells} {address : Int} {bytes : List UInt8}
    (there : ∀ k b, bytes[k]? = some b → cells.get (Policy.cellOf (address + (k : Nat))) = b) :
    cells.overwrite address bytes = cells := by
  induction bytes generalizing address with
  | nil => rfl
  | cons b rest ih =>
      have first : cells.get (Policy.cellOf address) = b := by
        simpa using there 0 b rfl
      have same : Table.put cells (Policy.cellOf address) b = cells := by
        apply Table.ext
        intro c
        rw [Table.get_put]
        split
        · next here => rw [← here, first]
        · rfl
      rw [overwrite, same]
      apply ih
      intro k b' here
      have later := there (k + 1) b' here
      rwa [show address + ((k + 1 : Nat) : Int) = address + 1 + k by omega] at later

namespace Memory

variable {m : Memory} {address : Int} {values : List Int}

/-- A write of a block that is refused leaves all cells as they were. -/
def RefusedWriteKept (m : Memory) (address : Int) (values : List Int) : Prop :=
  ∀ m' f, m.writeBytes address (values.map byteOf) = (m', .error f) → m'.cells = m.cells

/-- The policy refuses addresses, and a block begins in the memory and goes on behind its end. Some
byte before the end is not in its cell yet. -/
structure HalfWritten (m : Memory) (address : Int) (values : List Int) : Prop where
  refuses : m.policy = .fault
  begins : 0 ≤ address ∧ address ≤ 0xFFF
  ends : 0x1000 < address + values.length
  changes : ∃ (k : Nat) (n : Int), values[k]? = some n ∧ address + k ≤ 0xFFF ∧
    m.cells.get (Policy.cellOf (address + k)) ≠ byteOf n

theorem RefusedWriteKept.not_halfWritten (kept : m.RefusedWriteKept address values) :
    ¬ m.HalfWritten address values := by
  rintro ⟨refuses, begins, ends, k, n, there, inside, other⟩
  have first : FirstOutside address (values.map byteOf).length 0x1000 := by
    rw [List.length_map]
    exact firstOutside_iff.mpr ⟨by omega, Or.inr ⟨begins, rfl, ends⟩⟩
  have same := kept _ _ (writeBytes_of_firstOutside refuses first)
  have written : ((values.map byteOf).take (0x1000 - address).toNat)[k]? = some (byteOf n) := by
    rw [List.getElem?_take_of_lt (by omega), List.getElem?_map, there]
    rfl
  have fits : ((values.map byteOf).take (0x1000 - address).toNat).length ≤ 4096 := by
    rw [List.length_take]
    omega
  apply other
  rw [← same]
  exact Cells.get_overwrite_inside fits written

theorem refusedWriteKept_of_not_halfWritten (whole : ¬ m.HalfWritten address values) :
    m.RefusedWriteKept address values := by
  intro m' f failed
  obtain ⟨refuses, target, first, rfl, rfl⟩ := writeBytes_eq_error_iff.mp failed
  apply Cells.overwrite_eq_self
  intro k b here
  by_cases less : k < (target - address).toNat
  · rw [List.getElem?_take_of_lt less, List.getElem?_map] at here
    obtain ⟨n, there, rfl⟩ := Option.map_eq_some_iff.mp here
    rw [List.length_map] at first
    obtain ⟨-, ⟨-, rfl⟩ | ⟨begins, rfl, ends⟩⟩ := firstOutside_iff.mp first
    · omega
    · -- a byte that is not in its cell yet would make it a write of a half
      by_cases same : m.cells.get (Policy.cellOf (address + k)) = byteOf n
      · exact same
      · exact absurd ⟨refuses, begins, ends, k, n, there, by omega, same⟩ whole
  · rw [List.getElem?_take_eq_none (by omega)] at here
    cases here

end Memory

namespace Emulator

/-- A host's write of a block that is refused leaves all cells as they were. -/
def RefusedWriteKept (e : Emulator) (address : Int) (values : List Int) : Prop :=
  ∀ f, (e.machine.memory.writeBytes address (values.map byteOf)).2 = .error f →
    (e.after (.writeBytes address values)).machine.memory.cells = e.machine.memory.cells

/-- A host's write is that of the memory. -/
theorem refusedWriteKept_memory (e : Emulator) (address : Int) (values : List Int) :
    e.RefusedWriteKept address values ↔ e.machine.memory.RefusedWriteKept address values := by
  constructor
  · intro kept m' f failed
    have same := kept f (congrArg Prod.snd failed)
    rwa [after, failed] at same
  · intro kept f failed
    exact kept _ f (Prod.ext rfl failed)

/-- **Writes that are refused.** The write of a block is refused for its first address outside of
the memory, and the bytes before that address are written. So it leaves all cells as they were
exactly unless the policy refuses addresses, the block begins in the memory and goes on behind its
end, and some byte before the end was not in its cell yet. The same holds if the host of an emulator
writes the block. -/
theorem refusedWriteKept_iff (address : Int) (values : List Int) :
    (∀ (m m' : Memory) (f : Fault),
      m.writeBytes address (values.map byteOf) = (m', .error f) ↔
        m.policy = .fault ∧
          ∃ target, FirstOutside address values.length target ∧
            f = .of (.memoryAccess target) ∧
            m' = { m with cells :=
              m.cells.overwrite address ((values.map byteOf).take (target - address).toNat) }) ∧
    (∀ m : Memory, m.RefusedWriteKept address values ↔ ¬ m.HalfWritten address values) ∧
    ∀ e : Emulator,
      e.RefusedWriteKept address values ↔ ¬ e.machine.memory.HalfWritten address values := by
  have kept (m : Memory) : m.RefusedWriteKept address values ↔ ¬ m.HalfWritten address values :=
    ⟨Memory.RefusedWriteKept.not_halfWritten, Memory.refusedWriteKept_of_not_halfWritten⟩
  refine ⟨?_, kept, ?_⟩
  · intro m m' f
    rw [Memory.writeBytes_eq_error_iff, List.length_map]
  · intro e
    rw [refusedWriteKept_memory, kept]

/-- Three bytes are written around the end of a memory that has no other addresses. Two of them
stay. -/
theorem threeAtEnd_halfWritten :
    ¬ (Memory.fresh .fault).RefusedWriteKept 0xFFE [1, 2, 3] ∧
      Reachable (loaded .fault 700 []) ∧ ¬ (loaded .fault 700 []).RefusedWriteKept 0xFFE [1, 2, 3] := by
  have half (m : Memory) (refuses : m.policy = .fault) (blank : m.cells.get 0xFFE = 0) :
      m.HalfWritten 0xFFE [1, 2, 3] := by
    refine ⟨refuses, by decide, by decide, 0, 1, rfl, by decide, ?_⟩
    intro same
    exact absurd (blank.symm.trans same) (by decide)
  refine ⟨?_, reachable_loaded (by decide) (by decide), ?_⟩
  · intro kept
    exact kept.not_halfWritten (half _ rfl (by decide +kernel))
  · rw [refusedWriteKept_memory]
    intro kept
    exact kept.not_halfWritten (half _ rfl (by decide +kernel))

end Emulator

end Chip8
