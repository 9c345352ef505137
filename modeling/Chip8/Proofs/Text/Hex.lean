import Chip8.Proofs.Text.Numeral

/-!
# Reading base sixteen back

What is shown in base sixteen is read back as the same number: zeros in front do not count, and
the digits are capital ones. A number below `16 ^ width` takes exactly `width` places.
-/

namespace Chip8.Text

/-- The number that a string of digits stands for in base sixteen. -/
def hexValue? (cs : List Char) : Option Nat :=
  (cs.mapM Base.sixteen.digit?).map Base.sixteen.ofDigits

/-! ## Digits -/

theorem digit?_hexDigit {d : Nat} (h : d < 16) : Base.sixteen.digit? (hexDigit d) = some d := by
  have all : ∀ d : Fin 16, Base.sixteen.digit? (hexDigit d) = some d.val := by decide
  exact all ⟨d, h⟩

/-- The capital digits. -/
def hexAlphabet : List Char := "0123456789ABCDEF".toList

theorem hexDigit_mem {d : Nat} (h : d < 16) : hexDigit d ∈ hexAlphabet := by
  have all : ∀ d : Fin 16, hexDigit d ∈ hexAlphabet := by decide
  exact all ⟨d, h⟩

theorem hexDigits_mem (n : Nat) : ∀ c ∈ hexDigits n, c ∈ hexAlphabet := by
  fun_induction hexDigits n with
  | case1 n small => simpa using hexDigit_mem small
  | case2 n large ih =>
      simp only [List.mem_append, List.mem_singleton]
      rintro c (mem | rfl)
      · exact ih c mem
      · exact hexDigit_mem (Nat.mod_lt n (by decide))

theorem padZeros_mem {width n : Nat} {c : Char} (mem : c ∈ padZeros width (hexDigits n)) :
    c ∈ hexAlphabet := by
  obtain zero | digit := List.mem_append.mp mem
  · rw [List.eq_of_mem_replicate zero]
    decide
  · exact hexDigits_mem n c digit

/-! ## Values -/

theorem hexValue?_concat {cs : List Char} {n d : Nat} (h : hexValue? cs = some n) (small : d < 16) :
    hexValue? (cs ++ [hexDigit d]) = some (n * 16 + d) :=
  Base.read?_concat h (digit?_hexDigit small)

theorem hexValue?_hexDigits (n : Nat) : hexValue? (hexDigits n) = some n := by
  fun_induction hexDigits n with
  | case1 n small =>
      have empty : hexValue? [] = some 0 := rfl
      simpa using hexValue?_concat empty small
  | case2 n large ih =>
      rw [hexValue?_concat ih (Nat.mod_lt n (by decide)), Nat.div_add_mod']

theorem hexValue?_padZeros (width n : Nat) :
    hexValue? (padZeros width (hexDigits n)) = some n :=
  (Base.sixteen.read?_zeros _ _).trans (hexValue?_hexDigits n)

/-! ## Lengths -/

theorem length_hexDigits_le {width n : Nat} (positive : 0 < width) (h : n < 16 ^ width) :
    (hexDigits n).length ≤ width := by
  induction width generalizing n with
  | zero => contradiction
  | succ k ih =>
      unfold hexDigits
      split
      case isTrue => simp
      case isFalse large =>
        rw [Nat.pow_succ] at h
        -- a number of two digits or more does not fit into one place
        have more : 0 < k := by
          cases k with
          | zero => omega
          | succ k => exact Nat.succ_pos k
        simpa using ih more (n := n / 16) (by omega)

theorem length_padZeros_hexDigits {width n : Nat} (positive : 0 < width) (h : n < 16 ^ width) :
    (padZeros width (hexDigits n)).length = width := by
  rw [length_padZeros]
  exact Nat.max_eq_left (length_hexDigits_le positive h)

/-- The two digits of a byte are its number at width two. -/
theorem toList_hexByte (b : UInt8) : (hexByte b).toList = padZeros 2 (hexDigits b.toNat) := by
  have bound := b.toNat_lt
  have h : b.toNat / 16 < 16 := by omega
  rw [hexByte, String.toList_ofList]
  unfold hexDigits
  split
  case isTrue small => simp [padZeros, Nat.div_eq_of_lt small, Nat.mod_eq_of_lt small]; decide
  case isFalse large => simp [padZeros, hexDigits, h]

end Chip8.Text
