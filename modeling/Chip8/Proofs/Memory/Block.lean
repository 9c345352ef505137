import Chip8.Memory

/-!
# Blocks of memory

A block of memory is checked by its first and its last address only. Since the addresses that a
policy allows are an interval, or all of them, that is enough: every address of a checked block is
allowed. So reading or writing a checked block is never refused half-way. What is left in a cell is
what was put there last.
-/

namespace Chip8

namespace Policy

/-- An access to the address is not refused. -/
def Allows (p : Policy) (address : Int) : Prop := p = wrap ∨ inMemory address

theorem resolve_of_allows {p : Policy} {address : Int} (h : p.Allows address) :
    p.resolve address = .ok (cellOf address) := by
  rcases h with rfl | h
  · exact resolve_wrap address
  · exact resolve_of_inMemory p h

theorem resolve_of_not_allows {p : Policy} {address : Int} (h : ¬ p.Allows address) :
    p.resolve address = .error (.of (.memoryAccess address)) := by
  rw [resolve_eq_error_iff]
  cases p with
  | wrap => exact absurd (Or.inl rfl) h
  | fault => exact ⟨rfl, fun hm => h (Or.inr hm), rfl⟩

/-- A refused access is reported with its address, and with nothing else. -/
theorem resolve_error {p : Policy} {address : Int} {f : Fault} (h : p.resolve address = .error f) :
    f = .of (.memoryAccess address) :=
  ((resolve_eq_error_iff p address f).mp h).2.2

/-- What lies between two allowed addresses is allowed. -/
theorem Allows.between {p : Policy} {first last address : Int} (hf : p.Allows first)
    (hl : p.Allows last) (h : first ≤ address) (h' : address ≤ last) : p.Allows address := by
  rcases hf with rfl | hf
  · exact Or.inl rfl
  · rcases hl with rfl | hl
    · exact Or.inl rfl
    · rw [inMemory_iff] at hf hl
      exact Or.inr ((inMemory_iff address).mpr ⟨by omega, by omega⟩)

theorem not_allows_iff {p : Policy} {n : Nat} : ¬ p.Allows n ↔ p = fault ∧ 0xFFF < n := by
  rw [Allows, inMemory_iff]
  cases p with
  | wrap => exact iff_of_false (fun refused => refused (Or.inl rfl)) nofun
  | fault =>
      simp only [reduceCtorEq, false_or, true_and]
      omega

theorem cellOf_natCast {n : Nat} (h : n < 4096) : cellOf (n : Int) = ⟨n, h⟩ := by
  apply Fin.ext
  show ((n : Int) % 4096).toNat = n
  omega

/-- A block passes the check exactly when every address of it is allowed. -/
theorem check_eq_ok_iff (p : Policy) (address count : Int) :
    p.check address count = .ok () ↔
      ∀ k : Int, 0 ≤ k → k < count → p.Allows (address + k) := by
  unfold check
  by_cases hc : count ≤ 0
  · rw [if_pos hc]
    exact ⟨fun _ k hk hk' => absurd hk' (by omega), fun _ => rfl⟩
  · rw [if_neg hc]
    by_cases hf : p.Allows address
    · rw [resolve_of_allows hf]
      by_cases hl : p.Allows (address + count - 1)
      · rw [resolve_of_allows hl]
        refine ⟨fun _ k hk hk' => ?_, fun _ => rfl⟩
        exact hf.between hl (by omega) (by omega)
      · rw [resolve_of_not_allows hl]
        refine ⟨fun h => (nomatch h), fun h => ?_⟩
        have last := h (count - 1) (by omega) (by omega)
        rw [show address + (count - 1) = address + count - 1 by omega] at last
        exact absurd last hl
    · rw [resolve_of_not_allows hf]
      refine ⟨fun h => (nomatch h), fun h => ?_⟩
      have first := h 0 (by omega) (by omega)
      rw [Int.add_zero] at first
      exact absurd first hf

/-- A block that fails the check is reported with its first or with its last address. -/
theorem check_error {p : Policy} {address count : Int} {f : Fault}
    (h : p.check address count = .error f) :
    f = .of (.memoryAccess address) ∨ f = .of (.memoryAccess (address + count - 1)) := by
  unfold check at h
  split at h
  · cases h
  · by_cases hf : p.Allows address
    · rw [resolve_of_allows hf] at h
      by_cases hl : p.Allows (address + count - 1)
      · rw [resolve_of_allows hl] at h
        cases h
      · rw [resolve_of_not_allows hl] at h
        cases h
        exact Or.inr rfl
    · rw [resolve_of_not_allows hf] at h
      cases h
      exact Or.inl rfl

/-- No two addresses of a block name the same cell, unless the block goes all around the memory. -/
theorem cellOf_add_inj {address : Int} {j k : Nat} (hj : j < 4096) (hk : k < 4096)
    (same : cellOf (address + j) = cellOf (address + k)) : j = k := by
  have residue : ((address + j) % 4096).toNat = ((address + k) % 4096).toNat :=
    congrArg Fin.val same
  omega

end Policy

/-! ## Overwriting cells -/

namespace Cells

/-- The cells when bytes were put one after the other where the addresses of a block name. -/
def overwrite (cells : Cells) (address : Int) : List UInt8 → Cells
  | [] => cells
  | b :: rest => overwrite (Table.put cells (Policy.cellOf address) b) (address + 1) rest

/-- Bytes that are put one after the other leave all other cells alone. -/
theorem get_overwrite {cells : Cells} {address : Int} {bytes : List UInt8} {c : Fin 4096}
    (outside : ∀ k : Nat, k < bytes.length → c ≠ Policy.cellOf (address + k)) :
    (cells.overwrite address bytes).get c = cells.get c := by
  induction bytes generalizing cells address with
  | nil => rfl
  | cons b rest ih =>
      have first := outside 0 (Nat.succ_pos _)
      rw [Int.natCast_zero, Int.add_zero] at first
      rw [overwrite, ih, Table.get_put_of_ne _ _ first.symm]
      intro k less
      have later := outside (k + 1) (Nat.succ_lt_succ less)
      rwa [show address + ((k + 1 : Nat) : Int) = address + 1 + k by omega] at later

/-- A cell holds what was put there last. -/
theorem get_overwrite_last {cells : Cells} {address : Int} {bytes : List UInt8} {k : Nat} {b : UInt8}
    (here : bytes[k]? = some b)
    (last : ∀ j, k < j → j < bytes.length →
      Policy.cellOf (address + k) ≠ Policy.cellOf (address + j)) :
    (cells.overwrite address bytes).get (Policy.cellOf (address + k)) = b := by
  induction bytes generalizing cells address k with
  | nil => cases here
  | cons a rest ih =>
      rw [overwrite]
      cases k with
      | zero =>
          obtain rfl : a = b := Option.some.inj here
          rw [Int.natCast_zero, Int.add_zero] at last ⊢
          rw [get_overwrite, Table.get_put_self]
          intro j less
          have later := last (j + 1) (Nat.succ_pos _) (Nat.succ_lt_succ less)
          rwa [show address + ((j + 1 : Nat) : Int) = address + 1 + j by omega] at later
      | succ k =>
          have shift (j : Nat) : address + ((j + 1 : Nat) : Int) = address + 1 + j := by omega
          rw [shift]
          refine ih here fun j more less => ?_
          have later := last (j + 1) (Nat.succ_lt_succ more) (Nat.succ_lt_succ less)
          rwa [shift, shift] at later

/-- In a block that does not go all around the memory each byte stays where it was put. -/
theorem get_overwrite_inside {cells : Cells} {address : Int} {bytes : List UInt8} {k : Nat}
    {b : UInt8} (fits : bytes.length ≤ 4096) (here : bytes[k]? = some b) :
    (cells.overwrite address bytes).get (Policy.cellOf (address + k)) = b := by
  refine get_overwrite_last here fun j more less same => ?_
  have below := (List.getElem?_eq_some_iff.mp here).1
  have equal := Policy.cellOf_add_inj (by omega) (by omega) same
  omega

end Cells

namespace Memory

/-! ## Reading -/

theorem read_of_allows {m : Memory} {address : Int} (h : m.policy.Allows address) :
    m.read address = .ok (m.cells.get (Policy.cellOf address)) := by
  unfold read
  rw [Policy.resolve_of_allows h]
  rfl

theorem read_of_not_allows {m : Memory} {address : Int} (h : ¬ m.policy.Allows address) :
    m.read address = .error (.of (.memoryAccess address)) := by
  unfold read
  rw [Policy.resolve_of_not_allows h]
  rfl

theorem read_error {m : Memory} {address : Int} {f : Fault} (h : m.read address = .error f) :
    f = .of (.memoryAccess address) := by
  unfold read at h
  cases hr : m.policy.resolve address with
  | error g =>
      rw [hr] at h
      cases h
      exact Policy.resolve_error hr
  | ok cell =>
      rw [hr] at h
      cases h

/-- A word is refused for its first byte, or else for its second. -/
theorem readWord_error {m : Memory} {address : Int} {f : Fault}
    (h : m.readWord address = .error f) :
    f = .of (.memoryAccess address) ∨ f = .of (.memoryAccess (address + 1)) := by
  unfold readWord at h
  cases high : m.read address with
  | error g =>
      rw [high] at h
      cases h
      exact Or.inl (read_error high)
  | ok b =>
      cases low : m.read (address + 1) with
      | error g =>
          rw [high, low] at h
          cases h
          exact Or.inr (read_error low)
      | ok c =>
          rw [high, low] at h
          cases h

/-- A word within a memory is read under any policy. -/
theorem readWord_of_inside (m : Memory) {n : Nat} (h : n + 1 < 4096) :
    m.readWord n =
      .ok (wordOfBytes (m.cells.get ⟨n, Nat.lt_of_succ_lt h⟩) (m.cells.get ⟨n + 1, h⟩)) := by
  have high : m.policy.Allows n := Or.inr ((Policy.inMemory_iff _).mpr (by omega))
  have low : m.policy.Allows (n + 1 : Nat) := Or.inr ((Policy.inMemory_iff _).mpr (by omega))
  rw [readWord, read_of_allows high, show (n : Int) + 1 = (n + 1 : Nat) from rfl,
    read_of_allows low, Policy.cellOf_natCast h, Policy.cellOf_natCast (Nat.lt_of_succ_lt h)]
  rfl

/-- What the cells hold that the addresses of a block name. -/
def blockAt (m : Memory) (address : Int) (count : Nat) : List UInt8 :=
  (List.range count).map fun (k : Nat) => m.cells.get (Policy.cellOf (address + k))

theorem length_blockAt (m : Memory) (address : Int) (count : Nat) :
    (m.blockAt address count).length = count := by
  rw [blockAt, List.length_map, List.length_range]

theorem blockAt_succ (m : Memory) (address : Int) (count : Nat) :
    m.blockAt address (count + 1) =
      m.cells.get (Policy.cellOf address) :: m.blockAt (address + 1) count := by
  unfold blockAt
  rw [List.range_succ_eq_map, List.map_cons, List.map_map]
  congr 1
  · rw [Int.natCast_zero, Int.add_zero]
  · refine List.map_congr_left fun k _ => ?_
    show m.cells.get (Policy.cellOf (address + ((k + 1 : Nat) : Int))) = _
    rw [show address + ((k + 1 : Nat) : Int) = address + 1 + k by omega]

/-- Bytes whose places are all allowed are all read. -/
theorem readBytes_of_allows {m : Memory} {count : Nat} : ∀ {address : Int},
    (∀ k : Int, 0 ≤ k → k < count → m.policy.Allows (address + k)) →
      m.readBytes address count = .ok (m.blockAt address count) := by
  induction count with
  | zero => exact fun _ => rfl
  | succ count ih =>
      intro address h
      have first := h 0 (by omega) (by omega)
      rw [Int.add_zero] at first
      have rest : m.readBytes (address + 1) count = .ok (m.blockAt (address + 1) count) := by
        refine ih fun k hk hk' => ?_
        have later := h (k + 1) (by omega) (by omega)
        rwa [show address + (k + 1) = address + 1 + k by omega] at later
      rw [readBytes, read_of_allows first, rest, blockAt_succ]
      rfl

/-! ## Writing -/

theorem write_of_allows {m : Memory} {address : Int} (b : UInt8) (h : m.policy.Allows address) :
    m.write address b = .ok { m with cells := Table.put m.cells (Policy.cellOf address) b } := by
  unfold write
  rw [Policy.resolve_of_allows h]
  rfl

theorem write_of_not_allows {m : Memory} {address : Int} (b : UInt8)
    (h : ¬ m.policy.Allows address) :
    m.write address b = .error (.of (.memoryAccess address)) := by
  unfold write
  rw [Policy.resolve_of_not_allows h]
  rfl

/-- Bytes whose places are all allowed are all written. -/
theorem writeBytes_of_allows {bytes : List UInt8} : ∀ {m : Memory} {address : Int},
    (∀ k : Int, 0 ≤ k → k < bytes.length → m.policy.Allows (address + k)) →
      m.writeBytes address bytes =
        ({ m with cells := m.cells.overwrite address bytes }, .ok ()) := by
  induction bytes with
  | nil => exact fun _ => rfl
  | cons b rest ih =>
      intro m address h
      have first := h 0 (by omega) (by simp only [List.length_cons]; omega)
      rw [Int.add_zero] at first
      rw [writeBytes, write_of_allows b first]
      refine ih fun k hk hk' => ?_
      have later := h (k + 1) (by omega) (by simp only [List.length_cons]; omega)
      rwa [show address + (k + 1) = address + 1 + k by omega] at later

/-- A read of a checked block is not refused. -/
theorem readBytes_of_check {m : Memory} {address : Int} {count : Nat}
    (h : m.policy.check address count = .ok ()) :
    m.readBytes address count = .ok (m.blockAt address count) :=
  readBytes_of_allows ((Policy.check_eq_ok_iff _ _ _).mp h)

/-- A write of a checked block is not refused. -/
theorem writeBytes_of_check {m : Memory} {address : Int} {bytes : List UInt8}
    (h : m.policy.check address bytes.length = .ok ()) :
    m.writeBytes address bytes = ({ m with cells := m.cells.overwrite address bytes }, .ok ()) :=
  writeBytes_of_allows ((Policy.check_eq_ok_iff _ _ _).mp h)

end Memory

end Chip8
