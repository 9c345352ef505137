import Chip8.Proofs.Text.Numeral

/-!
# Notations of an address

The same number can be written in base ten, or in base sixteen behind `0x`, `0X` or `$`. All of
these are read as that number (`notations_agree`).
-/

namespace Chip8.Address

open Chip8.Text

/-- A text that holds none of the marks is decimal. -/
theorem ofText?_of_unmarked {s : String} (dollar : '$' ∉ s.toList) (small : 'x' ∉ s.toList)
    (large : 'X' ∉ s.toList) : ofText? s = Base.ten.parse? s.toList := by
  unfold ofText?
  split
  · next text => simp [text] at small
  · next text => simp [text] at large
  · next text => simp [text] at dollar
  · rfl

theorem ofText?_decimal {n : Nat} {s : String} (h : IsNumeral .ten n s) :
    ofText? s = if s.length ≤ 4300 then some (n : Int) else none := by
  rw [ofText?_of_unmarked (h.not_mem (by decide)) (h.not_mem (by decide)) (h.not_mem (by decide)),
    h.parse?_eq]
  by_cases short : s.length ≤ 4300
  · rw [if_pos short, if_neg fun long => Nat.not_le_of_lt long.2 short]
    rfl
  · rw [if_neg short, if_pos ⟨rfl, Nat.lt_of_not_le short⟩]

section Marks

variable {n : Nat} {s : String} (h : IsNumeral .sixteen n s)

include h

theorem ofText?_small_mark : ofText? ("0x" ++ s) = some (n : Int) := by
  rw [ofText?, String.toList_append]
  exact h.parse?_marked (Or.inl rfl)

theorem ofText?_large_mark : ofText? ("0X" ++ s) = some (n : Int) := by
  rw [ofText?, String.toList_append]
  exact h.parse?_marked (Or.inr rfl)

theorem ofText?_dollar : ofText? ("$" ++ s) = some (n : Int) := by
  rw [ofText?, String.toList_append]
  exact h.parse?_eq.trans (if_neg nofun)

end Marks

/-- **All notations of an address agree.** The digits of a number, with any zeros in front, are read
as that number: in base ten as long as there are not more than 4300 of them, and in base sixteen
behind each of the marks, whatever the case of the letters. -/
theorem notations_agree (n : Nat) :
    (∀ s, IsNumeral .ten n s → ofText? s = if s.length ≤ 4300 then some (n : Int) else none) ∧
    ∀ s, IsNumeral .sixteen n s → ofText? ("0x" ++ s) = some (n : Int) ∧
      ofText? ("0X" ++ s) = some (n : Int) ∧ ofText? ("$" ++ s) = some (n : Int) :=
  ⟨fun _ h => ofText?_decimal h,
    fun _ h => ⟨ofText?_small_mark h, ofText?_large_mark h, ofText?_dollar h⟩⟩

/-- One number in letters of both cases, and behind zeros. -/
theorem cafe_notations :
    (IsNumeral .ten 51966 "0051966" ∧ IsNumeral .sixteen 51966 "00cAfE") ∧
    ofText? "0051966" = some 51966 ∧ ofText? "0x00cAfE" = some 51966 ∧
      ofText? "0X00cAfE" = some 51966 ∧ ofText? "$00cAfE" = some 51966 := by
  have decimal : IsNumeral .ten 51966 "0051966" := ⟨2, by decide⟩
  have hexadecimal : IsNumeral .sixteen 51966 "00cAfE" := ⟨2, by decide⟩
  obtain ⟨ten, sixteen⟩ := notations_agree 51966
  exact ⟨⟨decimal, hexadecimal⟩, ten _ decimal, sixteen _ hexadecimal⟩

end Chip8.Address
