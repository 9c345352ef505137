import Chip8.Machine.Snapshot
import Chip8.Proofs.Snapshot.Fields

/-!
# Registers and stack in a snapshot

The registers come first in a snapshot, and with them the stack, which takes as much room as the
byte in front of it says. `RegistersAt` is what a list of bytes has to have at a place for them:
an admissible depth, and enough bytes behind it.
-/

namespace Chip8

open Chip8.Snapshot

namespace Machine

variable {raw : List UInt8} {place : Nat}

/-! ## The stack -/

/-- The return addresses whose bytes stand from a place on, the oldest first. -/
def addressesAt (raw : List UInt8) (place depth : Nat) : List Int :=
  (List.range depth).map fun (k : Nat) => ((wordAt raw (place + 2 * k)).toNat : Int)

theorem restoredStack_numbers {depth : Nat} (h : place + 2 * depth ≤ raw.length)
    (near : place + 2 * depth ≤ farthest) :
    restoredStack (numbers raw) place depth = .ok (addressesAt raw place depth).reverse := by
  have all := mapM_ok (l := List.range depth)
    (f := fun (k : Nat) => pairAt (numbers raw) ((place : Int) + 2 * k))
    (g := fun (k : Nat) => ((wordAt raw (place + 2 * k)).toNat : Int)) fun k hk => ?_
  · rw [restoredStack, all]
    rfl
  · have := List.mem_range.mp hk
    rw [show (place : Int) + 2 * k = ((place + 2 * k : Nat) : Int) by omega]
    exact pairAt_numbers (by omega) (by omega)

theorem le_length_of_restoredStack {depth : Nat} {stack : List Int} (start : place ≤ raw.length)
    (h : restoredStack (numbers raw) place depth = .ok stack) :
    place + 2 * depth ≤ raw.length := by
  unfold restoredStack at h
  cases all : (List.range depth).mapM fun (k : Nat) =>
      pairAt (numbers raw) ((place : Int) + 2 * k) with
  | error e =>
      rw [all] at h
      cases h
  | ok oldestFirst =>
      cases depth with
      | zero => exact start
      | succ depth =>
          -- the last address lies behind all others
          obtain ⟨a, last⟩ := ok_of_mapM all depth (List.mem_range.mpr (Nat.lt_succ_self depth))
          rw [show (place : Int) + 2 * depth = ((place + 2 * depth : Nat) : Int) by omega] at last
          have := lt_length_of_pairAt last
          omega

/-- Return addresses are saved as the bytes they were restored from. -/
theorem saved_addressesAt {depth : Nat} (h : place + 2 * depth ≤ raw.length) :
    (addressesAt raw place depth).flatMap savedAddress = slice raw place (2 * depth) := by
  induction depth with
  | zero => rfl
  | succ depth ih =>
      have last : savedAddress ((wordAt raw (place + 2 * depth)).toNat : Int) =
          slice raw (place + 2 * depth) 2 := by
        rw [savedAddress, wordOf_toNat, bytes_wordAt (by omega)]
      unfold addressesAt at *
      rw [List.range_succ, List.map_append, List.flatMap_append, ih (by omega), List.map_singleton,
        List.flatMap_singleton, last, slice_append]
      rfl

theorem length_addressesAt (depth : Nat) : (addressesAt raw place depth).length = depth := by
  rw [addressesAt, List.length_map, List.length_range]

theorem word_of_mem_addressesAt {depth : Nat} {a : Int} (h : a ∈ addressesAt raw place depth) :
    0 ≤ a ∧ a < 65536 := by
  obtain ⟨k, -, rfl⟩ := List.mem_map.mp h
  have := (wordAt raw (place + 2 * k)).toNat_lt
  omega

/-! ## All registers -/

/-- Restoring registers changes nothing else, however far it gets. -/
theorem restoreRegisters_frame (m : Machine) (data : List Int) (offset : Int) :
    ∃ v index pc stack waiting, (m.restoreRegisters data offset).1 =
      { m with v := v, index := index, pc := pc, stack := stack, waitingForKey := waiting } := by
  unfold restoreRegisters
  dsimp only
  split
  · exact ⟨_, _, _, _, _, rfl⟩
  · split
    · exact ⟨_, _, _, _, _, rfl⟩
    · split
      · exact ⟨_, _, _, _, _, rfl⟩
      · split
        · exact ⟨_, _, _, _, _, rfl⟩
        · split
          · exact ⟨_, _, _, _, _, rfl⟩
          · split
            · exact ⟨_, _, _, _, _, rfl⟩
            · split
              · exact ⟨_, _, _, _, _, rfl⟩
              · exact ⟨_, _, _, _, _, rfl⟩

/-- What restoring registers takes from the data. -/
theorem restoreRegisters_eq_ok_iff {m m' : Machine} {data : List Int} {offset size : Int} :
    m.restoreRegisters data offset = (m', .ok size) ↔
      ∃ file index pc depth stack,
        ((block data offset 16).length = 16 ∧ bytes (block data offset 16) = .ok file) ∧
        pairAt data (offset + 16) = .ok index ∧ pairAt data (offset + 18) = .ok pc ∧
        (numberAt data (offset + 20) = .ok depth ∧ depth ≤ stackDepth) ∧
        restoredStack data (offset + 21) depth.toNat = .ok stack ∧
        m' = { m with
          v := Vector.ofFn fun r => file.getD r 0
          index := wordOf index
          pc := wordOf pc
          stack := stack
          waitingForKey := false } ∧
        size = 21 + 2 * depth := by
  constructor
  · intro h
    unfold restoreRegisters at h
    dsimp only at h
    split at h
    · cases h
    · rename_i whole
      split at h
      · cases h
      · rename_i file hf
        split at h
        · cases h
        · rename_i index hi
          split at h
          · cases h
          · rename_i pc hp
            split at h
            · cases h
            · rename_i depth hd
              split at h
              · cases h
              · rename_i room
                split at h
                · cases h
                · rename_i stack hs
                  cases h
                  exact ⟨file, index, pc, depth, stack, ⟨by omega, hf⟩, hi, hp,
                    ⟨hd, by omega⟩, hs, rfl, rfl⟩
  · rintro ⟨file, index, pc, depth, stack, ⟨whole, hf⟩, hi, hp, ⟨hd, room⟩, hs, rfl, rfl⟩
    unfold restoreRegisters
    dsimp only
    rw [if_neg (by omega), hf]
    dsimp only
    rw [hi]
    dsimp only
    rw [hp]
    dsimp only
    rw [hd]
    dsimp only
    rw [if_neg (by omega), hs]

/-- The depth of the stack in the registers at a place. -/
def depthAt (raw : List UInt8) (place : Nat) : Nat := (raw.getD (place + 20) 0).toNat

structure RegistersAt (raw : List UInt8) (place : Nat) : Prop where
  depth : depthAt raw place ≤ stackDepth
  room : place + 21 + 2 * depthAt raw place ≤ raw.length

/-- The machine with the registers and the stack that stand at a place. -/
def withRegistersAt (m : Machine) (raw : List UInt8) (place : Nat) : Machine :=
  { m with
    v := Vector.ofFn fun r => (slice raw place 16).getD r 0
    index := wordAt raw (place + 16)
    pc := wordAt raw (place + 18)
    stack := (addressesAt raw (place + 21) (depthAt raw place)).reverse
    waitingForKey := false }

@[simp] theorem withRegistersAt_timers (m : Machine) :
    (m.withRegistersAt raw place).timers = m.timers := rfl

@[simp] theorem withRegistersAt_memory (m : Machine) :
    (m.withRegistersAt raw place).memory = m.memory := rfl

@[simp] theorem withRegistersAt_screen (m : Machine) :
    (m.withRegistersAt raw place).screen = m.screen := rfl

theorem restoreRegisters_numbers (m : Machine) (h : RegistersAt raw place)
    (near : place + 53 ≤ farthest) :
    m.restoreRegisters (numbers raw) place =
      (m.withRegistersAt raw place, .ok (21 + 2 * depthAt raw place : Int)) := by
  have depth : depthAt raw place ≤ 16 := h.depth
  have room := h.room
  have file : block (numbers raw) place 16 = numbers (slice raw place 16) := block_numbers _ _ _
  have index : pairAt (numbers raw) ((place : Int) + 16) = .ok _ :=
    pairAt_numbers (show place + 16 + 1 < raw.length by omega)
      (show place + 16 + 1 ≤ farthest by omega)
  have pc : pairAt (numbers raw) ((place : Int) + 18) = .ok _ :=
    pairAt_numbers (show place + 18 + 1 < raw.length by omega)
      (show place + 18 + 1 ≤ farthest by omega)
  have saved : numberAt (numbers raw) ((place : Int) + 20) = .ok (depthAt raw place : Int) :=
    numberAt_numbers (show place + 20 < raw.length by omega)
      (show place + 20 ≤ farthest by omega)
  have stack : restoredStack (numbers raw) ((place : Int) + 21) (depthAt raw place) = .ok _ :=
    restoredStack_numbers room (show place + 21 + 2 * depthAt raw place ≤ farthest by omega)
  refine restoreRegisters_eq_ok_iff.mpr ⟨slice raw place 16, _, _, depthAt raw place, _,
    ⟨?_, ?_⟩, index, pc, ⟨saved, ?_⟩, stack, ?_, rfl⟩
  · rw [file, length_numbers, length_slice (by omega)]
  · rw [file, bytes_numbers]
  · exact Int.ofNat_le.mpr h.depth
  · rw [withRegistersAt, wordOf_toNat, wordOf_toNat]

theorem registersAt_of_restore {m m' : Machine} {size : Int}
    (h : m.restoreRegisters (numbers raw) place = (m', .ok size)) : RegistersAt raw place := by
  obtain ⟨_, _, _, depth, stack, -, -, -, ⟨saved, room⟩, restored, -, -⟩ :=
    restoreRegisters_eq_ok_iff.mp h
  obtain ⟨inside, same⟩ : place + 20 < raw.length ∧ depth = (depthAt raw place : Int) :=
    lt_length_of_numberAt saved
  subst same
  have start : place + 21 ≤ raw.length := by omega
  exact ⟨Int.ofNat_le.mp room, le_length_of_restoredStack start restored⟩

/-- Registers are saved as the bytes they were restored from. -/
theorem savedRegisters_withRegistersAt (m : Machine) (h : RegistersAt raw place) :
    (m.withRegistersAt raw place).savedRegisters =
      slice raw place (21 + 2 * depthAt raw place) := by
  have room := h.room
  have file : (Vector.ofFn fun r : Fin 16 => (slice raw place 16).getD r 0).toList =
      slice raw place 16 := by
    have length := length_slice (show place + 16 ≤ raw.length by omega)
    refine List.ext_getElem (by rw [Vector.length_toList, length]) fun k hk hk' => ?_
    rw [Vector.getElem_toList, Vector.getElem_ofFn, List.getD_eq_getElem _ _ hk']
  have index := bytes_wordAt (show place + 16 + 1 < raw.length by omega)
  have pc := bytes_wordAt (show place + 18 + 1 < raw.length by omega)
  have depth : [byteOf (depthAt raw place : Int)] = slice raw (place + 20) 1 := by
    rw [slice_one (by omega), depthAt, byteOf_toNat]
  have fixed : slice raw place 21 = slice raw place 16 ++ slice raw (place + 16) 2 ++
      slice raw (place + 18) 2 ++ slice raw (place + 20) 1 := by
    rw [slice_append raw place 16 2, slice_append raw place 18 2, slice_append raw place 20 1]
  rw [← slice_append, fixed, ← saved_addressesAt room, ← index, ← pc, ← depth, savedRegisters,
    withRegistersAt]
  simp only [file, List.reverse_reverse, List.length_reverse, length_addressesAt,
    List.append_assoc, List.cons_append, List.nil_append]

end Machine

end Chip8
