import Mathlib.Order.Bounds.Defs
import Chip8.Proofs.Memory.Refused

/-!
# Memory as an array

An access that is not refused reaches the cells that its addresses name, and addresses that differ
by a multiple of the size of the memory name the same cell. So the memory is an array whose indices
are residues: a cell holds the last byte that was put into it, a block that is not longer than the
memory is read back as it was written, and turning a block once around the memory changes nothing.
A memory of residues refuses no access at all.
-/

namespace Chip8

namespace Policy

theorem cellOf_add_turns (address turns : Int) :
    cellOf (address + 4096 * turns) = cellOf address := by
  apply Fin.ext
  show ((address + 4096 * turns) % 4096).toNat = (address % 4096).toNat
  rw [Int.add_mul_emod_self_left]

end Policy

/-- Bytes that are put around the memory some more times come to the same cells. -/
theorem Cells.overwrite_add_turns (cells : Cells) (address turns : Int) (bytes : List UInt8) :
    cells.overwrite (address + 4096 * turns) bytes = cells.overwrite address bytes := by
  induction bytes generalizing cells address with
  | nil => rfl
  | cons b rest ih =>
      rw [overwrite, overwrite, Policy.cellOf_add_turns, Int.add_right_comm, ih]

namespace Memory

open Policy (cellOf)

variable {m m' : Memory} {address : Int}

/-! ## Blocks of cells -/

theorem getElem?_blockAt {count k : Nat} (less : k < count) :
    (m.blockAt address count)[k]? = some (m.cells.get (cellOf (address + k))) := by
  rw [blockAt, List.getElem?_map, List.getElem?_range less]
  rfl

theorem blockAt_add_turns (m : Memory) (address turns : Int) (count : Nat) :
    m.blockAt (address + 4096 * turns) count = m.blockAt address count := by
  apply List.map_congr_left
  intro k _
  rw [Int.add_right_comm, Policy.cellOf_add_turns]

/-- A block that does not go all around the memory is found as it was put there. -/
theorem blockAt_overwrite {bytes : List UInt8} (fits : bytes.length ≤ 4096) :
    { m with cells := m.cells.overwrite address bytes }.blockAt address bytes.length = bytes := by
  apply List.ext_getElem
  · rw [length_blockAt]
  · intro k less less'
    apply Option.some.inj
    rw [← List.getElem?_eq_getElem, getElem?_blockAt less']
    congr 1
    exact Cells.get_overwrite_inside fits (List.getElem?_eq_getElem less')

/-! ## Accesses that are not refused -/

theorem writeBytes_eq_ok_iff {bytes : List UInt8} :
    m.writeBytes address bytes = (m', .ok ()) ↔
      (∀ k : Int, 0 ≤ k → k < bytes.length → m.policy.Allows (address + k)) ∧
        m' = { m with cells := m.cells.overwrite address bytes } := by
  constructor
  · intro written
    rcases m.policy.allows_or_firstOutside address bytes.length with
      allowed | ⟨refuses, target, first⟩
    · rw [writeBytes_of_allows allowed] at written
      cases written
      exact ⟨allowed, rfl⟩
    · rw [writeBytes_of_firstOutside refuses first] at written
      cases written
  · rintro ⟨allowed, rfl⟩
    exact writeBytes_of_allows allowed

theorem readBytes_eq_ok_iff {count : Nat} {bytes : List UInt8} :
    m.readBytes address count = .ok bytes ↔
      (∀ k : Int, 0 ≤ k → k < count → m.policy.Allows (address + k)) ∧
        bytes = m.blockAt address count := by
  constructor
  · intro read
    rcases m.policy.allows_or_firstOutside address count with
      allowed | ⟨refuses, target, first⟩
    · rw [readBytes_of_allows allowed] at read
      cases read
      exact ⟨allowed, rfl⟩
    · rw [readBytes_of_firstOutside refuses first] at read
      cases read
  · rintro ⟨allowed, rfl⟩
    exact readBytes_of_allows allowed

theorem readWord_eq_ok_iff {w : UInt16} :
    m.readWord address = .ok w ↔
      (m.policy.Allows address ∧ m.policy.Allows (address + 1)) ∧
        w = wordOfBytes (m.cells.get (cellOf address)) (m.cells.get (cellOf (address + 1))) := by
  unfold readWord
  by_cases high : m.policy.Allows address
  · by_cases low : m.policy.Allows (address + 1)
    · rw [read_of_allows high, read_of_allows low]
      constructor
      · intro read
        cases read
        exact ⟨⟨high, low⟩, rfl⟩
      · rintro ⟨-, rfl⟩
        rfl
    · rw [read_of_allows high, read_of_not_allows low]
      exact iff_of_false nofun fun read => low read.1.2
  · rw [read_of_not_allows high]
    exact iff_of_false nofun fun read => high read.1.1

/-! ## The array -/

/-- No access of any kind is refused. -/
structure RefusesNothing (m : Memory) : Prop where
  writes : ∀ address bytes, ∃ m', m.writeBytes address bytes = (m', .ok ())
  reads : ∀ address count, ∃ bytes, m.readBytes address count = .ok bytes
  words : ∀ address, ∃ w, m.readWord address = .ok w

theorem refusesNothing_of_wrap (wraps : m.policy = .wrap) : m.RefusesNothing := by
  have allowed (address : Int) : m.policy.Allows address := Or.inl wraps
  constructor
  · intro address bytes
    exact ⟨_, writeBytes_of_allows fun k _ _ => allowed _⟩
  · intro address count
    exact ⟨_, readBytes_of_allows fun k _ _ => allowed _⟩
  · intro address
    exact ⟨_, readWord_eq_ok_iff.mpr ⟨⟨allowed _, allowed _⟩, rfl⟩⟩

/-- The memory after values were put into a block one after the other: each cell has the last of
those that were put there, modulo 256, or else what it had before. -/
structure Overwritten (m : Memory) (address : Int) (values : List Int) (m' : Memory) : Prop where
  policy : m'.policy = m.policy
  last : ∀ (c : Fin 4096) (j : Nat) (n : Int),
    IsGreatest {j : Nat | j < values.length ∧ cellOf (address + j) = c} j → values[j]? = some n →
      ((m'.cells.get c).toNat : Int) = n % 256
  others : ∀ c : Fin 4096, (∀ j < values.length, cellOf (address + (j : Nat)) ≠ c) →
    m'.cells.get c = m.cells.get c

theorem overwritten (m : Memory) (address : Int) (values : List Int) :
    m.Overwritten address values
      { m with cells := m.cells.overwrite address (values.map byteOf) } := by
  refine ⟨rfl, ?_, ?_⟩
  · rintro c j n ⟨⟨-, rfl⟩, greatest⟩ there
    have here : (values.map byteOf)[j]? = some (byteOf n) := by
      rw [List.getElem?_map, there]
      rfl
    have put : (m.cells.overwrite address (values.map byteOf)).get (cellOf (address + j)) =
        byteOf n := by
      apply Cells.get_overwrite_last here
      intro i more less same
      rw [List.length_map] at less
      exact absurd (greatest ⟨less, same.symm⟩) (Nat.not_le_of_lt more)
    rw [put, toNat_byteOf]
  · intro c untouched
    apply Cells.get_overwrite
    intro k less same
    rw [List.length_map] at less
    exact untouched k less same.symm

/-- What was written is read back, modulo 256. -/
theorem readBytes_of_written {values : List Int} (fits : values.length ≤ 4096)
    (written : m.writeBytes address (values.map byteOf) = (m', .ok ())) :
    ∃ bytes, m'.readBytes address values.length = .ok bytes ∧
      bytes.map (fun b => (b.toNat : Int)) = values.map (· % 256) := by
  obtain ⟨allowed, rfl⟩ := writeBytes_eq_ok_iff.mp written
  have length : (values.map byteOf).length = values.length := List.length_map _
  rw [← length] at fits ⊢
  refine ⟨values.map byteOf, ?_, ?_⟩
  · rw [readBytes_eq_ok_iff, blockAt_overwrite fits]
    exact ⟨allowed, rfl⟩
  · rw [List.map_map]
    apply List.map_congr_left
    intro n _
    exact toNat_byteOf n

/-- Accesses to a block and to the same block some turns around the memory, neither of them refused,
have the same outcome. -/
structure SameAround (m : Memory) (address turns : Int) : Prop where
  writes : ∀ bytes, (m.writeBytes address bytes).2 = .ok () →
    (m.writeBytes (address + 4096 * turns) bytes).2 = .ok () →
      m.writeBytes (address + 4096 * turns) bytes = m.writeBytes address bytes
  reads : ∀ count bytes bytes', m.readBytes address count = .ok bytes →
    m.readBytes (address + 4096 * turns) count = .ok bytes' → bytes' = bytes
  words : ∀ w w', m.readWord address = .ok w →
    m.readWord (address + 4096 * turns) = .ok w' → w' = w

theorem sameAround (m : Memory) (address turns : Int) : m.SameAround address turns := by
  constructor
  · intro bytes here there
    have written : m.writeBytes address bytes = (_, .ok ()) := Prod.ext rfl here
    have around : m.writeBytes (address + 4096 * turns) bytes = (_, .ok ()) := Prod.ext rfl there
    have same := (writeBytes_eq_ok_iff.mp around).2
    rw [Cells.overwrite_add_turns, ← (writeBytes_eq_ok_iff.mp written).2] at same
    exact Prod.ext same (there.trans here.symm)
  · intro count bytes bytes' here there
    rw [(readBytes_eq_ok_iff.mp here).2, (readBytes_eq_ok_iff.mp there).2, blockAt_add_turns]
  · intro w w' here there
    rw [(readWord_eq_ok_iff.mp here).2, (readWord_eq_ok_iff.mp there).2, Int.add_right_comm,
      Policy.cellOf_add_turns, Policy.cellOf_add_turns]

/-- **Memory is an array of residues.** Under the policy that reduces addresses no access is
refused. Under any policy, an access that is not refused keeps the laws of arrays: after a write
each cell has the last value that was put there, modulo 256, or what it had before; a read gives the
cells that the addresses name; what was written is read back if the block is not longer than the
memory; a word has its two bytes from two cells; and turns around the memory make no difference. -/
theorem array_laws (m : Memory) :
    (m.policy = .wrap → m.RefusesNothing) ∧
    (∀ address values m', m.writeBytes address (values.map byteOf) = (m', .ok ()) →
      m.Overwritten address values m' ∧
        (values.length ≤ 4096 → ∃ bytes, m'.readBytes address values.length = .ok bytes ∧
          bytes.map (fun b => (b.toNat : Int)) = values.map (· % 256))) ∧
    (∀ address count bytes, m.readBytes address count = .ok bytes →
      bytes.length = count ∧
        ∀ k < count, bytes[k]? = some (m.cells.get (cellOf (address + (k : Nat))))) ∧
    (∀ address w, m.readWord address = .ok w →
      w.toNat = 256 * (m.cells.get (cellOf address)).toNat +
        (m.cells.get (cellOf (address + 1))).toNat) ∧
    ∀ address turns, m.SameAround address turns := by
  refine ⟨refusesNothing_of_wrap, ?_, ?_, ?_, sameAround m⟩
  · intro address values m' written
    refine ⟨?_, fun fits => readBytes_of_written fits written⟩
    obtain ⟨-, rfl⟩ := writeBytes_eq_ok_iff.mp written
    exact overwritten m address values
  · intro address count bytes read
    obtain ⟨-, rfl⟩ := readBytes_eq_ok_iff.mp read
    exact ⟨length_blockAt m address count, fun k less => getElem?_blockAt less⟩
  · intro address w read
    obtain ⟨-, rfl⟩ := readWord_eq_ok_iff.mp read
    rw [toNat_wordOfBytes, Nat.mul_comm]

/-- Two numbers more than there are cells. -/
def lapping : List Int := (List.range 4098).map Int.ofNat

/-- Numbers that go all around the memory lap over the first of them. Two numbers before the end of a
memory that has no other addresses are read back, as bytes and as a word. And a block a turn below
the memory is the same four turns above. -/
theorem lapping_laws :
    (∃ m', (fresh .wrap).writeBytes (-1) (lapping.map byteOf) = (m', .ok ()) ∧
      ((m'.cells.get 0).toNat : Int) = 1) ∧
    (∃ m' bytes w, (fresh .fault).writeBytes 0xFFE ([0x112, -1].map byteOf) = (m', .ok ()) ∧
      m'.readBytes 0xFFE 2 = .ok bytes ∧ bytes.map (fun b => (b.toNat : Int)) = [0x12, 0xFF] ∧
      m'.readWord 0xFFE = .ok w ∧ w.toNat = 256 * (m'.cells.get 0xFFE).toNat +
        (m'.cells.get 0xFFF).toNat) ∧
    (fresh .wrap).writeBytes (-2 + 4096 * 4) [1, 2, 3] = (fresh .wrap).writeBytes (-2) [1, 2, 3] := by
  obtain ⟨total, writes, -, -, around⟩ := array_laws (fresh .wrap)
  obtain ⟨-, writesWithin, -, -, -⟩ := array_laws (fresh .fault)
  refine ⟨?_, ?_, ?_⟩
  · obtain ⟨m', written⟩ := (total rfl).writes (-1) (lapping.map byteOf)
    refine ⟨m', written, ?_⟩
    have there : lapping[4097]? = some 4097 := by
      rw [lapping, List.getElem?_map, List.getElem?_range (by decide)]
      rfl
    have last : IsGreatest {j : Nat | j < lapping.length ∧ cellOf (-1 + j) = 0} 4097 := by
      rw [lapping, List.length_map, List.length_range]
      refine ⟨⟨by decide, by decide⟩, ?_⟩
      rintro j ⟨less, -⟩
      exact Nat.le_of_lt_succ less
    exact (writes _ _ _ written).1.last 0 4097 4097 last there
  · obtain ⟨m', written⟩ : ∃ m', (fresh .fault).writeBytes 0xFFE ([0x112, -1].map byteOf) =
        (m', .ok ()) := ⟨_, rfl⟩
    obtain ⟨bytes, read, numbers⟩ := (writesWithin _ _ _ written).2 (by decide)
    have word : m'.readWord 0xFFE = .ok _ := readWord_eq_ok_iff.mpr
      ⟨⟨Policy.allows_of_inside _ (by decide), Policy.allows_of_inside _ (by decide)⟩, rfl⟩
    obtain ⟨-, -, -, words, -⟩ := array_laws m'
    exact ⟨m', bytes, _, written, read, numbers, word, words _ _ word⟩
  · obtain ⟨m', written⟩ := (total rfl).writes (-2) [1, 2, 3]
    obtain ⟨m'', turned⟩ := (total rfl).writes (-2 + 4096 * 4) [1, 2, 3]
    exact (around (-2) 4).writes _ (congrArg Prod.snd written) (congrArg Prod.snd turned)

end Memory

end Chip8
