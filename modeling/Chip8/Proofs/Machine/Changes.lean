import Chip8.Proofs.Machine.Footprint
import Chip8.Proofs.Machine.Numbers
import Chip8.Proofs.Memory.Block

/-!
# What an instruction writes

Within its footprint an instruction writes to a part of a part: to some registers, to the flag, to
the index, or to the cells of a block at the index. Registers that are no result of the instruction
stay, also where VX is the flag or VX and VY are the same; so do cells outside of the block, also
where the block goes over the end of the memory.
-/

namespace Chip8

/-! ## What belongs to an instruction -/

namespace Instruction

/-- The register takes a result of the instruction. -/
def Results (i : Instruction) (r : Fin 16) : Prop :=
  match i.op with
  | .ldByte | .addByte | .ldReg | .or | .and | .xor | .addReg | .sub | .shr | .subn | .shl
  | .rnd | .getDelay | .waitKey => r = i.x
  | .load => r ≤ i.x
  | _ => False

/-- The number of bytes that the instruction stores at the index. -/
def storedCells (i : Instruction) : Nat :=
  match i.op with
  | .digits => 3
  | .store => i.x + 1
  | _ => 0

end Instruction

namespace Machine

variable (m : Machine) (i : Instruction)

/-- The instruction sets the flag, besides its results. -/
def SetsFlag : Prop :=
  match i.op with
  | .addReg | .sub | .shr | .subn | .shl | .draw => True
  | .addIndex => m.dialect.flagsIndexOverflow ∧ 0xFFF < m.index.toNat + (m.v.get i.x).toNat
  | _ => False

/-- The instruction sets the index. -/
def SetsIndex : Prop :=
  match i.op with
  | .ldIndex | .addIndex | .glyph => True
  | .store | .load => m.dialect.movesIndex
  | _ => False

variable {m i} {r : Fin 16}

/-! ## Registers -/

theorem get_setV_of_ne {x : Fin 16} (b : UInt8) (other : r ≠ x) :
    (m.setV x b).v.get r = m.v.get r := Table.get_put_of_ne _ _ other.symm

theorem get_setFlag_of_ne (on : Bool) (other : r ≠ flag) :
    (m.setFlag on).v.get r = m.v.get r := get_setV_of_ne _ other

theorem get_setRegisters_of_le {bytes : List UInt8} (behind : bytes.length ≤ r) :
    (m.setRegisters bytes).v.get r = m.v.get r := by
  rw [setRegisters, Table.get_ofFn, List.getD_eq_getElem?_getD, List.getElem?_eq_none behind]
  rfl

theorem loadRegisters_of_ok {count : Nat} {bytes : List UInt8}
    (loaded : m.loadBlock count = .ok bytes) :
    m.loadRegisters count = ((m.setRegisters bytes).passBlock count).done := by
  rw [loadRegisters, loaded]

theorem loadRegisters_of_error {count : Nat} {f : Fault} (refused : m.loadBlock count = .error f) :
    m.loadRegisters count = m.refused f := by
  rw [loadRegisters, refused]

theorem get_loadRegisters_of_le {count : Nat} (behind : count ≤ r) :
    (m.loadRegisters count).1.v.get r = m.v.get r := by
  cases loaded : m.loadBlock count with
  | error f =>
      rw [loadRegisters_of_error loaded]
      rfl
  | ok bytes =>
      obtain ⟨index, passed⟩ := passBlock_frame (m.setRegisters bytes) count
      have length : bytes.length = count := loadBlock_length loaded
      have kept : (m.setRegisters bytes).v.get r = m.v.get r :=
        get_setRegisters_of_le (length ▸ behind)
      rw [loadRegisters_of_ok loaded, passed]
      exact kept

theorem get_drawSprite_of_ne (other : r ≠ flag) : (m.drawSprite i).1.v.get r = m.v.get r := by
  unfold drawSprite
  cases m.loadBlock i.n with
  | error f => rfl
  | ok sprite => exact get_setFlag_of_ne (m := { m with screen := _ }) _ other

theorem get_waitKey_of_ne {x : Fin 16} (other : r ≠ x) : (m.waitKey x).v.get r = m.v.get r := by
  unfold waitKey
  cases m.keypad.first? with
  | none => rfl
  | some key => exact get_setV_of_ne _ other

/-- Only an index that leaves the memory touches the flag. -/
theorem get_addToIndex_of {b : UInt8}
    (noFlag : ¬ (r = flag ∧ m.dialect.flagsIndexOverflow ∧ 0xFFF < m.index.toNat + b.toNat)) :
    (m.addToIndex b).v.get r = m.v.get r := by
  unfold addToIndex
  dsimp only
  split
  · rename_i leaves
    exact get_setFlag_of_ne true fun same => noFlag ⟨same, leaves⟩
  · rfl

/-- A register that takes no result stays, unless it is the flag and the flag is set. -/
theorem effect_register (noResult : ¬ i.Results r) (noFlag : ¬ (r = flag ∧ m.SetsFlag i)) :
    (m.effect i).1.v.get r = m.v.get r := by
  unfold Instruction.Results at noResult
  unfold SetsFlag at noFlag
  have skip (condition : Bool) : (m.skipIf condition).v.get r = m.v.get r := by
    obtain ⟨pc, skipped⟩ := skipIf_frame m condition
    rw [skipped]
  cases hop : i.op <;>
    simp only [hop, and_true, and_false, not_false_eq_true] at noResult noFlag <;>
    simp only [effect, hop]
  case skipEqByte | skipNeByte | skipEqReg | skipNeReg | skipKey | skipNoKey => exact skip _
  case ldByte | addByte | ldReg | or | and | xor | getDelay => exact get_setV_of_ne _ noResult
  case rnd => exact get_setV_of_ne (m := { m with random := _ }) _ noResult
  case addReg | sub | subn | shr | shl =>
    exact (get_setFlag_of_ne _ noFlag).trans (get_setV_of_ne _ noResult)
  case waitKey => exact get_waitKey_of_ne noResult
  case addIndex => exact get_addToIndex_of noFlag
  case draw => exact get_drawSprite_of_ne noFlag
  case load => exact get_loadRegisters_of_le (Nat.lt_of_not_le noResult)
  case digits =>
    obtain ⟨memory, stored⟩ := storeBlock_frame m (decimalDigits (m.v.get i.x))
    rw [stored]
  case store =>
    obtain ⟨memory, index, stored⟩ := storeRegisters_frame m (i.x.toNat + 1)
    rw [stored]
  case call =>
    unfold call
    split <;> rfl
  case ret =>
    unfold ret
    split <;> rfl
  -- what is left writes no registers
  all_goals rfl

/-! ## Index -/

theorem passBlock_of_stays (stays : ¬ m.dialect.movesIndex) (count : Nat) :
    m.passBlock count = m := if_neg stays

theorem storeRegisters_index (stays : ¬ m.dialect.movesIndex) (count : Nat) :
    (m.storeRegisters count).1.index = m.index := by
  obtain ⟨memory, stored⟩ := storeBlock_frame m (m.v.toList.take count)
  unfold storeRegisters
  rcases there : m.storeBlock (m.v.toList.take count) with ⟨m', f | ⟨⟩⟩ <;> rw [there] at stored
  · obtain rfl : m' = { m with memory := memory } := stored
    rfl
  · obtain rfl : m' = { m with memory := memory } := stored
    show (passBlock { m with memory := memory } count).index = m.index
    rw [passBlock_of_stays (m := { m with memory := memory }) stays]

theorem loadRegisters_index (stays : ¬ m.dialect.movesIndex) (count : Nat) :
    (m.loadRegisters count).1.index = m.index := by
  cases loaded : m.loadBlock count with
  | error f =>
      rw [loadRegisters_of_error loaded]
      rfl
  | ok bytes =>
      rw [loadRegisters_of_ok loaded, passBlock_of_stays (m := m.setRegisters bytes) stays]
      rfl

theorem effect_index (stays : ¬ m.SetsIndex i) : (m.effect i).1.index = m.index := by
  unfold SetsIndex at stays
  have skip (condition : Bool) : (m.skipIf condition).index = m.index := by
    obtain ⟨pc, skipped⟩ := skipIf_frame m condition
    rw [skipped]
  cases hop : i.op <;> simp only [hop, not_true_eq_false, not_false_eq_true] at stays <;>
    simp only [effect, hop]
  case skipEqByte | skipNeByte | skipEqReg | skipNeReg | skipKey | skipNoKey => exact skip _
  case waitKey =>
    obtain ⟨v, pc, waiting, waited⟩ := waitKey_frame m i.x
    show (m.waitKey i.x).index = m.index
    rw [waited]
  case digits =>
    obtain ⟨memory, stored⟩ := storeBlock_frame m (decimalDigits (m.v.get i.x))
    rw [stored]
  case draw =>
    obtain ⟨v, screen, drawn⟩ := drawSprite_frame m i
    rw [drawn]
  case store => exact storeRegisters_index stays _
  case load => exact loadRegisters_index stays _
  case call =>
    unfold call
    split <;> rfl
  case ret =>
    unfold ret
    split <;> rfl
  all_goals rfl

/-! ## Memory -/

theorem storeBlock_cells {bytes : List UInt8} {c : Fin 4096}
    (outside : ∀ k : Nat, k < bytes.length → c ≠ Policy.cellOf (m.index.toNat + k)) :
    (m.storeBlock bytes).1.memory.cells.get c = m.memory.cells.get c := by
  unfold storeBlock
  cases checked : m.memory.policy.check m.index.toNat bytes.length with
  | error f => rfl
  | ok =>
      dsimp only
      rw [Memory.writeBytes_of_check checked]
      exact Cells.get_overwrite outside

theorem storeRegisters_memory (m : Machine) (count : Nat) :
    (m.storeRegisters count).1.memory = (m.storeBlock (m.v.toList.take count)).1.memory := by
  unfold storeRegisters
  rcases m.storeBlock (m.v.toList.take count) with ⟨m', f | ⟨⟩⟩
  · rfl
  · obtain ⟨index, passed⟩ := passBlock_frame m' count
    show (m'.passBlock count).memory = m'.memory
    rw [passed]

/-- A cell outside of the block that an instruction stores stays. -/
theorem effect_cell {c : Fin 4096}
    (outside : ∀ k : Nat, k < i.storedCells → c ≠ Policy.cellOf (m.index.toNat + k)) :
    (m.effect i).1.memory.cells.get c = m.memory.cells.get c := by
  unfold Instruction.storedCells at outside
  by_cases digits : i.op = .digits
  · rw [digits] at outside
    rw [effect, digits]
    exact storeBlock_cells outside
  · by_cases store : i.op = .store
    · rw [store] at outside
      rw [effect, store]
      dsimp only
      rw [storeRegisters_memory]
      refine storeBlock_cells fun k less => outside k ?_
      exact Nat.lt_of_lt_of_le less (List.length_take_le _ _)
    · rw [(effect_footprint m i).memory digits store]

/-! ## Random bytes -/

/-- Only a random instruction takes a byte, and it takes one. -/
theorem effect_random (m : Machine) (i : Instruction) :
    (m.effect i).1.random = if i.op = .rnd then m.random.next.2 else m.random := by
  by_cases rnd : i.op = .rnd
  · rw [if_pos rnd, effect, rnd]
    rfl
  · rw [if_neg rnd]
    exact (effect_footprint m i).random rnd

/-- What a random instruction makes of the byte it takes. -/
theorem effect_of_rnd (rnd : i.op = .rnd) :
    m.effect i =
      ({ m with random := m.random.next.2 }.setV i.x (m.random.next.1 &&& i.nn)).done := by
  rw [effect, rnd]

end Machine

end Chip8
