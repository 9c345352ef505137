import Chip8.Proofs.Machine.Changes

/-!
# Arithmetic with a flag

Sums, differences and shifts put their result into VX and what does not fit into the flag. Result
and flag together are exact (`Balanced`). All operands are read before anything is written, and the
flag is written last: this also holds where VX and VY are the same register, or one of them is the
flag, except that a result in the flag is lost. Adding a byte has no flag, and adding to the index
sets the flag in some dialects and never clears it.
-/

namespace Chip8

/-- The operations that calculate with the number in VX. -/
def Op.calculates : Op → Bool
  | .addByte | .addReg | .sub | .subn | .shr | .shl | .addIndex => true
  | _ => false

namespace Machine

/-- The number in a register. -/
def number (m : Machine) (r : Fin 16) : Nat := (m.v.get r).toNat

/-- The numbers before and after a calculation. -/
def Balanced (m : Machine) (i : Instruction) (m' : Machine) : Prop :=
  let a := m.number i.x
  let b := m.number i.y
  let s := if m.dialect.shiftsVY then b else a
  let x := m'.number i.x
  let f := m'.number flag
  match i.op with
  | .addReg => f = (a + b) / 256 ∧ (i.x ≠ flag → 256 * f + x = a + b)
  | .sub => f = (if b ≤ a then 1 else 0) ∧ (i.x ≠ flag → (x : Int) = a - b + 256 * (1 - f))
  | .subn => f = (if a ≤ b then 1 else 0) ∧ (i.x ≠ flag → (x : Int) = b - a + 256 * (1 - f))
  | .shr => f = s % 2 ∧ (i.x ≠ flag → 2 * x + f = s)
  | .shl => f = s / 128 ∧ (i.x ≠ flag → 256 * f + x = 2 * s)
  | .addByte => x = (a + i.nn.toNat) % 256
  | .addIndex =>
    m'.index.toNat = (m.index.toNat + a) % 65536 ∧
      f = if m.dialect.flagsIndexOverflow ∧ 0xFFF < m.index.toNat + a then 1 else m.number flag
  | _ => False

/-- What a calculation left behind. -/
structure Calculated (m : Machine) (i : Instruction) (m' : Machine) : Prop where
  balanced : Balanced m i m'
  registers : ∀ r, ¬ i.Results r → ¬ (r = flag ∧ m.SetsFlag i) → m'.v.get r = m.v.get r
  index : i.op ≠ .addIndex → m'.index = m.index

/-! ## Bytes -/

section

variable (a b : UInt8)

theorem carry_eq : (decide (255 < a.toNat + b.toNat)).toNat = (a.toNat + b.toNat) / 256 := by
  have ha := a.toNat_lt
  have hb := b.toNat_lt
  rw [Bool.toNat, Bool.cond_decide]
  split <;> omega

theorem sum_exact : 256 * ((a.toNat + b.toNat) / 256) + (a + b).toNat = a.toNat + b.toNat := by
  rw [UInt8.toNat_add]
  omega

theorem covers_eq : (decide (b ≤ a)).toNat = if b.toNat ≤ a.toNat then 1 else 0 := by
  rw [Bool.toNat, Bool.cond_decide]
  simp only [UInt8.le_iff_toNat_le]

theorem difference_exact :
    ((a - b).toNat : Int) =
      a.toNat - b.toNat + 256 * (1 - (if b.toNat ≤ a.toNat then 1 else 0 : Nat)) := by
  have ha := a.toNat_lt
  have hb := b.toNat_lt
  rw [UInt8.toNat_sub]
  split <;> omega

theorem bit_eq {a : UInt8} (bit : a.toNat < 2) : (a == 1).toNat = a.toNat := by
  have one : a = 1 ↔ a.toNat = 1 := UInt8.toNat_inj.symm
  rw [beq_eq_decide, decide_eq_decide.mpr one, Bool.toNat, Bool.cond_decide]
  split <;> omega

theorem low_eq : (a % 2 == 1).toNat = a.toNat % 2 := by
  have low : (a % 2).toNat = a.toNat % 2 := UInt8.toNat_mod a 2
  rw [bit_eq (low ▸ Nat.mod_lt _ Nat.two_pos), low]

theorem half_exact : 2 * (a / 2).toNat + a.toNat % 2 = a.toNat := by
  rw [UInt8.toNat_div]
  exact Nat.div_add_mod _ _

theorem high_eq : (a / 128 == 1).toNat = a.toNat / 128 := by
  have ha := a.toNat_lt
  have high : (a / 128).toNat = a.toNat / 128 := UInt8.toNat_div a 128
  rw [bit_eq (by omega), high]

theorem double_exact : 256 * (a.toNat / 128) + (a * 2).toNat = 2 * a.toNat := by
  have ha := a.toNat_lt
  have double : (a * 2).toNat = a.toNat * 2 % 256 := UInt8.toNat_mul a 2
  omega

end

variable {m : Machine} {i : Instruction} {x : Fin 16}

/-! ## Result and flag -/

theorem number_setV (m : Machine) (x : Fin 16) (b : UInt8) : (m.setV x b).number x = b.toNat := by
  rw [number, setV, Table.get_put_self]

theorem number_setFlag (m : Machine) (on : Bool) : (m.setFlag on).number flag = on.toNat := by
  rw [setFlag, number_setV]
  cases on <;> rfl

/-- A result stays when the flag is written behind it, unless it is in the flag. -/
theorem number_result (m : Machine) (b : UInt8) (on : Bool) (other : x ≠ flag) :
    ((m.setV x b).setFlag on).number x = b.toNat := by
  rw [number, get_setFlag_of_ne on other]
  exact number_setV m x b

theorem toNat_shiftSource (m : Machine) (i : Instruction) :
    (m.shiftSource i).toNat = if m.dialect.shiftsVY then m.number i.y else m.number i.x := by
  unfold shiftSource
  split <;> rfl

theorem index_addToIndex (m : Machine) (b : UInt8) :
    (m.addToIndex b).index.toNat = (m.index.toNat + b.toNat) % 65536 := by
  show (m.index + b.toUInt16).toNat = _
  rw [UInt16.toNat_add, UInt8.toNat_toUInt16]

theorem flag_addToIndex (m : Machine) (b : UInt8) :
    (m.addToIndex b).number flag =
      if m.dialect.flagsIndexOverflow ∧ 0xFFF < m.index.toNat + b.toNat then 1
      else m.number flag := by
  unfold addToIndex
  dsimp only
  split
  · exact number_setFlag m true
  · rfl

/-- **Result and flag are exact.** -/
theorem balanced_effect (m : Machine) (calculates : i.op.calculates) :
    ∃ m', m.effect i = m'.done ∧ Balanced m i m' := by
  cases hop : i.op <;> simp only [hop, Op.calculates, Bool.false_eq_true] at calculates <;>
    simp only [effect, hop] <;> refine ⟨_, rfl, ?_⟩ <;>
    simp only [Balanced, hop, ← toNat_shiftSource, number_setFlag]
  case addReg =>
    rw [carry_eq]
    refine ⟨rfl, fun other => ?_⟩
    rw [number_result m _ _ other]
    exact sum_exact _ _
  case sub | subn =>
    rw [covers_eq]
    refine ⟨rfl, fun other => ?_⟩
    rw [number_result m _ _ other]
    exact difference_exact _ _
  case shr =>
    rw [low_eq]
    refine ⟨rfl, fun other => ?_⟩
    rw [number_result m _ _ other]
    exact half_exact _
  case shl =>
    rw [high_eq]
    refine ⟨rfl, fun other => ?_⟩
    rw [number_result m _ _ other]
    exact double_exact _
  case addByte =>
    rw [number_setV]
    exact UInt8.toNat_add _ _
  case addIndex => exact ⟨index_addToIndex m _, flag_addToIndex m _⟩

/-! ## Calculations -/

/-- A calculation writes registers, and one of them the index. -/
theorem calculates_frame (m : Machine) (calculates : i.op.calculates) :
    (∃ v index, (m.effect i).1 = { m with v := v, index := index }) ∧
      (i.op ≠ .addIndex → (m.effect i).1.index = m.index) := by
  cases hop : i.op <;> simp only [hop, Op.calculates, Bool.false_eq_true] at calculates <;>
    simp only [effect, hop]
  case addIndex => exact ⟨addToIndex_frame m _, fun other => absurd rfl other⟩
  all_goals exact ⟨⟨_, m.index, rfl⟩, fun _ => rfl⟩

theorem calculated_effect (m : Machine) (calculates : i.op.calculates) :
    ∃ m', m.effect i = m'.done ∧ Calculated m i m' ∧
      ∃ v index, m' = { m with v := v, index := index } := by
  obtain ⟨m', effect, balanced⟩ := m.balanced_effect calculates
  obtain rfl : (m.effect i).1 = m' := congrArg Prod.fst effect
  obtain ⟨frame, index⟩ := m.calculates_frame calculates
  exact ⟨_, effect, ⟨balanced, fun r => effect_register, index⟩, frame⟩

/-- **Arithmetic and flags.** A calculation never fails, and writes nothing but the numbers that are
exact, also where VX, VY and the flag are not three different registers. It does so when it is
executed from outside and when it is fetched. -/
theorem arithmetic_exact (m : Machine) (i : Instruction) (calculates : i.op.calculates) :
    (∃ m', m.execute i = m'.done ∧ Calculated m i m' ∧
      ∃ v index, m' = { m with v := v, index := index, waitingForKey := false }) ∧
    (m.current? = some i → ∃ m', m.step = (m', .ok i) ∧ Calculated m i m') := by
  constructor
  · obtain ⟨m', effect, calculated, frame⟩ :=
      calculated_effect { m with waitingForKey := false } calculates
    exact ⟨m', effect, ⟨calculated.balanced, calculated.registers, calculated.index⟩, frame⟩
  · intro current
    obtain ⟨r, effect, calculated, -⟩ := m.begun.calculated_effect calculates
    refine ⟨_, step_of_executed current effect, ?_⟩
    exact ⟨calculated.balanced, calculated.registers, calculated.index⟩

/-- A machine that shifts VY, with 200 in V1, 100 in the flag, and the index at the end of the
memory. -/
def overlapping : Machine :=
  { (fresh .legacy .wrap (.constant 0)).setV ⟨1, by decide⟩ 200 with index := 0xFFF }.setV flag 100

/-- The flag is added to V1, V1 is shifted into the flag, and the flag is added to the index. -/
theorem overlapping_exact :
    (∃ m' : Machine, overlapping.execute (decode 0x81F4) = m'.done ∧ m'.number flag = 300 / 256 ∧
      256 * m'.number flag + m'.number ⟨1, by decide⟩ = 300) ∧
    (∃ m' : Machine, overlapping.execute (decode 0x8F16) = m'.done ∧ m'.number flag = 0) ∧
    ∃ m' : Machine, overlapping.execute (decode 0xFF1E) = m'.done ∧ m'.index.toNat = 0xFFF + 100 ∧
      m'.number flag = 1 := by
  have sum : decode 0x81F4 = ⟨.addReg, 0x81F4⟩ := by decide +kernel
  have shift : decode 0x8F16 = ⟨.shr, 0x8F16⟩ := by decide +kernel
  have leave : decode 0xFF1E = ⟨.addIndex, 0xFF1E⟩ := by decide +kernel
  rw [sum, shift, leave]
  refine ⟨?_, ?_, ?_⟩
  · obtain ⟨⟨m', executed, calculated, -⟩, -⟩ := arithmetic_exact overlapping ⟨.addReg, 0x81F4⟩ rfl
    obtain ⟨carry, exact⟩ := calculated.balanced
    exact ⟨m', executed, carry, exact (by decide)⟩
  · obtain ⟨⟨m', executed, calculated, -⟩, -⟩ := arithmetic_exact overlapping ⟨.shr, 0x8F16⟩ rfl
    exact ⟨m', executed, calculated.balanced.1⟩
  · obtain ⟨⟨m', executed, calculated, -⟩, -⟩ :=
      arithmetic_exact overlapping ⟨.addIndex, 0xFF1E⟩ rfl
    exact ⟨m', executed, calculated.balanced⟩

end Machine

end Chip8
