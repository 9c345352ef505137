import Chip8.Instruction.Encoding
import Mathlib.Data.List.Basic

/-!
# Encoding against decoding

A pattern gives a word its family and its last bits; how many bits are fixed at the end is told by
the layout, and what lies between is for the operands. `Op.Matches` says that a word has the fixed
bits of an operation. Decoding looks for these bits only and encoding puts them there, so both
agree as soon as it is known that the operands neither spill over nor meet the pattern. Two of the
words that match the call of a native routine have an operation of their own.
-/

namespace Chip8

/-! ## Fields -/

/-- An operand of an instruction word. -/
inductive Field
  | x
  | y
  | n
  | nn
  | nnn
  deriving DecidableEq, Repr

namespace Field

/-- The number of values that the field has room for. -/
def size : Field → Nat
  | x | y | n => 16
  | nn => 256
  | nnn => 4096

/-- What the lowest bit of the field is worth in a word. -/
def place : Field → Nat
  | x => 256
  | y => 16
  | n | nn | nnn => 1

end Field

namespace Operands

def get (f : Operands) : Field → Int
  | .x => f.x
  | .y => f.y
  | .n => f.n
  | .nn => f.nn
  | .nnn => f.nnn

/-- As much of an operand as its field has room for. -/
def masked (f : Operands) (k : Field) : Nat := (f.get k % k.size).toNat

end Operands

namespace Layout

/-- The operands that a layout has room for, from left to right. -/
def fields : Layout → List Field
  | plain => []
  | address => [.nnn]
  | registerByte => [.x, .nn]
  | registers => [.x, .y]
  | sprite => [.x, .y, .n]
  | register => [.x]

/-- The bits of a layout with operands put in. -/
def value (l : Layout) (f : Operands) : Nat :=
  l.fields.foldr (fun k rest => f.masked k * k.place + rest) 0

/-- What the lowest bit for operands is worth; the bits below are fixed. -/
def fixed : Layout → Nat
  | plain => 4096
  | address | registerByte | sprite => 1
  | registers => 16
  | register => 256

theorem value_le (l : Layout) (f : Operands) : l.value f + l.fixed ≤ 4096 := by
  cases l <;>
    simp [value, fields, fixed, Operands.masked, Operands.get, Field.size, Field.place] <;> omega

theorem value_mod_fixed (l : Layout) (f : Operands) : l.value f % l.fixed = 0 := by
  cases l <;> simp [value, fields, fixed, Field.place] <;> omega

theorem toNat_bits (l : Layout) (f : Operands) : (l.bits f).toNat = l.value f := by
  have small := l.value_le f
  cases l <;>
    simp [bits, field, value, fields, Operands.masked, Operands.get, Field.size, Field.place] <;>
    omega

/-- Nothing but the masked operands of the layout counts. -/
theorem bits_congr {l : Layout} {f g : Operands} (h : ∀ k ∈ l.fields, g.masked k = f.masked k) :
    l.bits g = l.bits f := by
  apply UInt16.toNat_inj.mp
  rw [toNat_bits, toNat_bits, value, value]
  apply List.foldr_ext
  intro k mem rest
  rw [h k mem]

end Layout

/-- The operands of a word are read at their places. -/
theorem get_operands (w : UInt16) (k : Field) :
    (decode w).operands.get k = (w.toNat / k.place % k.size : Nat) := by
  cases k with
  | x | y => rfl
  | n => simp [Operands.get, Instruction.operands, Instruction.n, Field.place, Field.size]
  | nn =>
      simp [Operands.get, Instruction.operands, Instruction.nn, toNat_lowByte, Field.place,
        Field.size]
  | nnn =>
      simp [Operands.get, Instruction.operands, Instruction.nnn, Field.place, Field.size]
      omega

theorem masked_operands (w : UInt16) (k : Field) :
    (decode w).operands.masked k = w.toNat / k.place % k.size := by
  rw [Operands.masked, get_operands, ← Int.natCast_emod, Int.toNat_natCast, Nat.mod_mod]

/-! ## Fixed bits -/

variable {op : Op} {w : UInt16}

namespace Op

/-- The word has the family and the last bits of the pattern. -/
structure Matches (op : Op) (w : UInt16) : Prop where
  family : w.toNat / 4096 = op.pattern.toNat / 4096
  tail : w.toNat % 4096 % op.layout.fixed = op.pattern.toNat % 4096

/-- Pattern and operands have different bits. -/
theorem pattern_lt_fixed (op : Op) : op.pattern.toNat % 4096 < op.layout.fixed := by
  cases op <;> decide

theorem toNat_word (op : Op) (f : Operands) :
    (op.pattern + op.layout.bits f).toNat = op.pattern.toNat + op.layout.value f := by
  have pattern := op.pattern.toNat_lt
  have fixed := op.pattern_lt_fixed
  have value := op.layout.value_le f
  rw [UInt16.toNat_add, Layout.toNat_bits]
  omega

theorem matches_word (op : Op) (f : Operands) : op.Matches (op.pattern + op.layout.bits f) := by
  have fixed := op.pattern_lt_fixed
  have value := op.layout.value_le f
  have word := op.toNat_word f
  have low : (op.pattern + op.layout.bits f).toNat % 4096 =
      op.pattern.toNat % 4096 + op.layout.value f := by omega
  refine ⟨by omega, ?_⟩
  rw [low, Nat.add_mod, Layout.value_mod_fixed, Nat.add_zero, Nat.mod_mod,
    Nat.mod_eq_of_lt fixed]

/-- An operand that is put in is read back. -/
theorem read_word (f : Operands) {k : Field} (h : k ∈ op.layout.fields) :
    (op.pattern + op.layout.bits f).toNat / k.place % k.size = f.masked k := by
  have fixed := op.pattern_lt_fixed
  rw [toNat_word]
  generalize op.pattern.toNat = p at fixed
  generalize op.layout = l at fixed h
  cases l <;> simp [Layout.fields] at h <;> rcases h with rfl | rfl | rfl <;>
    simp [Layout.fixed, Layout.value, Layout.fields, Operands.masked, Field.size, Field.place]
      at fixed ⊢ <;> omega

/-- A word that matches is the pattern with its own operands put in. -/
theorem Matches.word (h : op.Matches w) :
    op.pattern + op.layout.bits (decode w).operands = w := by
  obtain ⟨family, tail⟩ := h
  apply UInt16.toNat_inj.mp
  rw [toNat_word, Layout.value]
  simp only [masked_operands]
  generalize op.pattern.toNat = p at family tail
  generalize op.layout = l at tail
  cases l <;> simp [Layout.fixed, Layout.fields, Field.size, Field.place] at tail ⊢ <;> omega

/-! ## The decoder's tables -/

theorem matches_of_pattern
    (h : op.pattern.toNat = w.toNat / 4096 * 4096 + w.toNat % 4096 % op.layout.fixed) :
    op.Matches w := by
  have low := Nat.mod_le (w.toNat % 4096) op.layout.fixed
  constructor <;> omega

/-- The operations of a table have one layout, and each stands under the number that its pattern
adds to the family. -/
def Tabulates (table : Nat → Op) (family : Nat) (l : Layout) : Prop :=
  ∀ n, table n ≠ .unknown → (table n).pattern.toNat = family * 4096 + n ∧ (table n).layout = l

theorem Tabulates.matches {table : Nat → Op} {c : Nat} {l : Layout} (rows : Tabulates table c l)
    (family : w.toNat / 4096 = c) (known : table (w.toNat % 4096 % l.fixed) ≠ .unknown) :
    (table (w.toNat % 4096 % l.fixed)).Matches w := by
  obtain ⟨pattern, layout⟩ := rows _ known
  apply matches_of_pattern
  rw [pattern, layout, family]

theorem tabulates_arithmeticOp : Tabulates arithmeticOp 8 .registers := by
  intro n
  fun_cases arithmeticOp n
  case case10 => exact fun known => absurd rfl known
  all_goals exact fun _ => ⟨rfl, rfl⟩

theorem tabulates_keyOp : Tabulates keyOp 14 .register := by
  intro n
  fun_cases keyOp n
  case case3 => exact fun known => absurd rfl known
  all_goals exact fun _ => ⟨rfl, rfl⟩

theorem tabulates_deviceOp : Tabulates deviceOp 15 .register := by
  intro n
  fun_cases deviceOp n
  case case10 => exact fun known => absurd rfl known
  all_goals exact fun _ => ⟨rfl, rfl⟩

theorem systemOp_eq (n : Nat) :
    systemOp n = if n = 0x0E0 then .cls else if n = 0x0EE then .ret else .sys := by
  fun_cases systemOp n <;> simp_all

theorem matches_systemOp (family : w.toNat / 4096 = 0) :
    (systemOp (w.toNat % 4096)).Matches w := by
  apply matches_of_pattern
  rw [family, Nat.zero_mul, Nat.zero_add]
  generalize w.toNat % 4096 = low
  fun_cases systemOp low
  case case3 => exact (Nat.mod_one low).symm
  -- the two words with a meaning of their own have no operands
  all_goals rfl

theorem matches_opOf (known : opOf w ≠ .unknown) : (opOf w).Matches w := by
  have bound := w.toNat_lt
  revert known
  fun_cases opOf w <;> intro known
  case case1 low family => exact matches_systemOp family
  case case10 low family => exact tabulates_arithmeticOp.matches family known
  case case17 low family => exact tabulates_keyOp.matches family known
  case case18 low _ _ _ _ _ _ _ _ _ _ _ _ _ _ _ =>
    have family : w.toNat / 4096 = 15 := by
      simp only [imp_false] at *
      omega
    exact tabulates_deviceOp.matches family known
  case case7 | case12 => exact absurd rfl known
  all_goals
    apply matches_of_pattern
    simp [pattern, layout, Layout.fixed]
    omega

/-- A word that matches has the operation, unless it clears the screen or returns. -/
theorem opOf_of_matches (h : op.Matches w) (known : op ≠ .unknown) :
    opOf w = if op = .sys ∧ w.toNat % 4096 = 0x0E0 then .cls
      else if op = .sys ∧ w.toNat % 4096 = 0x0EE then .ret else op := by
  obtain ⟨family, tail⟩ := h
  cases op <;> simp only [pattern, layout, Layout.fixed, UInt16.reduceToNat, Nat.reduceDiv,
    Nat.reduceMod, Nat.mod_mod] at family tail
  case unknown => exact absurd rfl known
  all_goals simp [opOf, family, tail, systemOp_eq, arithmeticOp, keyOp, deviceOp]

end Op

/-! ## Both ways -/

theorem cast_masked (f : Operands) (k : Field) : (f.masked k : Int) = f.get k % k.size := by
  have size : (k.size : Int) ≠ 0 := by cases k <;> decide
  exact Int.toNat_of_nonneg (Int.emod_nonneg _ size)

/-- A word with a meaning is encoded from its operation and operands. -/
theorem encode_decode {w : UInt16} (known : (decode w).isKnown) :
    encode (decode w).op (decode w).operands = .ok w := by
  have known : opOf w ≠ .unknown := by simpa [Instruction.isKnown] using known
  rw [decode_op, encode, if_neg known, (Op.matches_opOf known).word]

theorem get_operands_word (f : Operands) {k : Field} (h : k ∈ op.layout.fields) :
    (decode (op.pattern + op.layout.bits f)).operands.get k = f.get k % k.size := by
  rw [get_operands, Op.read_word f h, cast_masked]

theorem decode_op_word (known : op ≠ .unknown) (f : Operands) :
    (decode (op.pattern + op.layout.bits f)).op =
      if op = .sys ∧ f.nnn % 4096 = 0x0E0 then .cls
      else if op = .sys ∧ f.nnn % 4096 = 0x0EE then .ret else op := by
  rw [decode_op, Op.opOf_of_matches (op.matches_word f) known]
  by_cases sys : op = .sys
  · have address : .nnn ∈ op.layout.fields := by subst sys; decide
    have read := get_operands_word f address
    rw [get_operands] at read
    have low : ∀ c : Nat, (op.pattern + op.layout.bits f).toNat % 4096 = c ↔
        f.nnn % 4096 = c := by
      intro c
      simp only [Field.place, Field.size, Operands.get] at read
      omega
    simp only [low]
    rfl
  · simp only [sys, false_and, if_false]

/-- Decoding and encoding are inverse to each other, as far as the operands have room and but for
the two words of the native call that have a meaning of their own. -/
theorem encoding_and_decoding_agree :
    (∀ w : Int, (decode (wordOf w)).isKnown →
      ∃ v, encode (decode (wordOf w)).op (decode (wordOf w)).operands = .ok v ∧
        (v.toNat : Int) = w % 65536) ∧
    ∀ op f, ((∃ err, encode op f = .error err) ↔ op = .unknown) ∧
      (op ≠ .unknown → ∃ v, encode op f = .ok v ∧
        v.toNat = op.pattern.toNat + op.layout.value f ∧
        (decode v).op = (if op = .sys ∧ f.nnn % 4096 = 0x0E0 then .cls
          else if op = .sys ∧ f.nnn % 4096 = 0x0EE then .ret else op) ∧
        (∀ k ∈ op.layout.fields, (decode v).operands.get k = f.get k % k.size) ∧
        ∀ g, (∀ k ∈ op.layout.fields, g.get k % k.size = f.get k % k.size) →
          encode op g = .ok v) := by
  refine ⟨fun w known => ⟨wordOf w, encode_decode known, toNat_wordOf w⟩, fun op f => ⟨?_, ?_⟩⟩
  · simp [encode_eq_error_iff]
  · intro known
    refine ⟨_, if_neg known, op.toNat_word f, decode_op_word known f,
      fun k => get_operands_word f, fun g same => ?_⟩
    have masked : ∀ k ∈ op.layout.fields, g.masked k = f.masked k := fun k mem => by
      rw [Operands.masked, Operands.masked, same k mem]
    rw [encode, if_neg known, Layout.bits_congr masked]

theorem outsizedOperands_agree :
    (∃ v, encode (decode (wordOf (-11995))).op (decode (wordOf (-11995))).operands = .ok v ∧
      (v.toNat : Int) = 0xD125) ∧
    ∃ v, encode .draw ⟨0, -1, 0x12, 0x105, 7, 9⟩ = .ok v ∧ v.toNat = 0xDF25 ∧
      (decode v).op = .draw ∧ (decode v).operands.get .x = 15 ∧
      encode .draw ⟨1, 15, 2, 5, 8, 8⟩ = .ok v := by
  refine ⟨encoding_and_decoding_agree.1 (-11995) (by decide), ?_⟩
  obtain ⟨v, done, word, op, operands, others⟩ :=
    (encoding_and_decoding_agree.2 .draw ⟨0, -1, 0x12, 0x105, 7, 9⟩).2 (by decide)
  exact ⟨v, done, word, op, operands .x (by decide), others ⟨1, 15, 2, 5, 8, 8⟩ (by decide)⟩

end Chip8
