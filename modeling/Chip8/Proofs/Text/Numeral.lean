import Chip8.Text.Basic
import Mathlib.Algebra.Group.Nat.Defs
import Mathlib.Data.List.TakeWhile

/-!
# Reading numerals back

A number that is written out digit by digit is read back as the same number, in base ten and in
base sixteen: zeros in front do not count, nor does the case of a letter (`IsNumeral.read?_eq`).
Digits are neither blanks nor signs, nor are they marks or underscores, so that a numeral passes
through the reader unchanged, alone (`parse?_of_read?`) as well as behind a mark (`parse?_marked`).
In base ten there must not be too many digits.
-/

namespace Chip8

theorem mapM_eq_some_iff {α β : Type} {f : α → Option β} {as : List α} {bs : List β} :
    as.mapM f = some bs ↔ as.map f = bs.map some := by
  induction as generalizing bs with
  | nil => cases bs <;> simp
  | cons a as ih =>
      rw [List.mapM_cons, List.map_cons]
      cases first : f a with
      | none => cases bs <;> simp
      | some b =>
          cases bs with
          | nil => cases as.mapM f <;> simp
          | cons b' bs =>
              cases rest : as.mapM f with
              | none => simp [← ih, rest]
              | some bs' => simp [← ih, rest]

namespace Text.Base

variable {b : Base} {c : Char} {cs : List Char} {n d : Nat}

/-- The number that a string of digits stands for. -/
def read? (b : Base) (cs : List Char) : Option Nat :=
  (cs.mapM b.digit?).map b.ofDigits

/-! ## Digits -/

theorem one_lt_value (b : Base) : 1 < b.value := by
  cases b <;> decide

theorem digit?_digitChar (small : d < b.value) : b.digit? (Nat.digitChar d) = some d := by
  have all : ∀ (b : Base) (d : Fin b.value), b.digit? (Nat.digitChar d) = some d.val := by
    intro b
    cases b <;> decide
  exact all b ⟨d, small⟩

theorem digit?_toLower (b : Base) (c : Char) : b.digit? c.toLower = b.digit? c := by
  by_cases upper : 65 ≤ c.toNat ∧ c.toNat ≤ 90
  · have all : ∀ (b : Base) (k : Fin 26),
        b.digit? (Char.ofNat (65 + k)).toLower = b.digit? (Char.ofNat (65 + k)) := by
      intro b
      cases b <;> decide
    have same : Char.ofNat (65 + (c.toNat - 65)) = c := by
      rw [Nat.add_sub_cancel' upper.1, Char.ofNat_toNat]
    simpa only [same] using all b ⟨c.toNat - 65, by omega⟩
  · have other : ¬ (c.val ≥ 'A'.val ∧ c.val ≤ 'Z'.val) := by
      simpa [UInt32.le_iff_toNat_le] using upper
    have same : c.toLower = c := dif_neg other
    rw [same]

theorem digitValue?_of_digit? (h : b.digit? c = some d) : digitValue? c = some d := by
  rw [digit?, Option.filter_eq_some_iff] at h
  exact h.1

theorem ne_of_digit? (h : b.digit? c = some d) {x : Char} (none : digitValue? x = none) :
    c ≠ x := by
  rintro rfl
  rw [digitValue?_of_digit? h] at none
  contradiction

theorem toNat_of_digit? (h : b.digit? c = some d) : 48 ≤ c.toNat ∧ c.toNat < 128 := by
  have value := digitValue?_of_digit? h
  simp only [digitValue?, Char.le_def, UInt32.le_iff_toNat_le, Char.toNat_val,
    Char.reduceToNat] at value
  grind

/-- A character that the reader takes as it stands: neither blank nor sign, and in no other
script. -/
structure IsSolid (c : Char) : Prop where
  itself : plain c = c
  visible : isPlainBlank c = false
  unsigned : c ≠ '-' ∧ c ≠ '+'

theorem isSolid_of_digit? (h : b.digit? c = some d) : IsSolid c := by
  obtain ⟨low, high⟩ := toNat_of_digit? h
  refine ⟨?_, ?_, ne_of_digit? h (by decide), ne_of_digit? h (by decide)⟩
  · rw [plain, if_pos high]
  · simp [isPlainBlank]
    omega

/-! ## Strings of digits -/

theorem read?_eq_some_iff :
    b.read? cs = some n ↔ ∃ ds, cs.map b.digit? = ds.map some ∧ b.ofDigits ds = n := by
  simp only [read?, Option.map_eq_some_iff, mapM_eq_some_iff]

theorem digit_of_read? (h : b.read? cs = some n) (mem : c ∈ cs) : ∃ d, b.digit? c = some d := by
  obtain ⟨ds, digits, -⟩ := read?_eq_some_iff.mp h
  have there := List.mem_map_of_mem (f := b.digit?) mem
  rw [digits] at there
  obtain ⟨d, -, digit⟩ := List.mem_map.mp there
  exact ⟨d, digit.symm⟩

theorem read?_toLower (b : Base) (cs : List Char) : b.read? (cs.map Char.toLower) = b.read? cs := by
  rw [read?, read?, List.mapM_map]
  exact congrArg (fun f => (cs.mapM f).map b.ofDigits) (funext b.digit?_toLower)

theorem read?_concat (h : b.read? cs = some n) (digit : b.digit? c = some d) :
    b.read? (cs ++ [c]) = some (n * b.value + d) := by
  simp only [read?, Option.map_eq_some_iff] at h
  obtain ⟨ds, read, rfl⟩ := h
  simp [read?, List.mapM_append, read, digit, ofDigits]

theorem read?_zero_cons (b : Base) (cs : List Char) : b.read? ('0' :: cs) = b.read? cs := by
  have zero : b.digit? '0' = some 0 := by cases b <;> decide
  simp only [read?, List.mapM_cons, zero]
  cases cs.mapM b.digit? with
  | none => rfl
  | some ds => simp [ofDigits]

theorem read?_zeros (b : Base) (k : Nat) (cs : List Char) :
    b.read? (List.replicate k '0' ++ cs) = b.read? cs := by
  induction k with
  | zero => rfl
  | succ k ih => rw [List.replicate_succ, List.cons_append, read?_zero_cons, ih]

theorem read?_toDigits (b : Base) (n : Nat) : b.read? (Nat.toDigits b.value n) = some n := by
  have base := b.one_lt_value
  induction n using Nat.strongRecOn with
  | ind n ih =>
      have empty : b.read? [] = some 0 := rfl
      rw [Nat.toDigits_eq_if base]
      split
      case isTrue small => simpa using read?_concat empty (digit?_digitChar small)
      case isFalse large =>
        have less : n / b.value < n := Nat.div_lt_self (by omega) base
        have last : n % b.value < b.value := Nat.mod_lt n (by omega)
        rw [read?_concat (ih _ less) (digit?_digitChar last), Nat.div_add_mod']

/-! ## The reader -/

theorem not_mem_of_read? (h : b.read? cs = some n) {x : Char} (none : digitValue? x = none) :
    x ∉ cs := by
  intro mem
  obtain ⟨d, digit⟩ := digit_of_read? h mem
  exact ne_of_digit? digit none rfl

theorem digits?_eq_mapM (full : cs ≠ []) (apart : '_' ∉ cs) :
    b.digits? cs = cs.mapM b.digit? := by
  fun_induction digits? b cs with
  | case1 => contradiction
  | case2 c => cases digit : b.digit? c <;> simp [digit]
  | case3 c rest => simp at apart
  | case4 c rest more _ ih =>
      rw [List.mapM_cons, ih more (List.not_mem_of_not_mem_cons apart)]

theorem afterMark_of_unmarked (small : 'x' ∉ cs) (large : 'X' ∉ cs) : b.afterMark cs = cs := by
  unfold afterMark
  split
  case h_1 x rest =>
      rw [if_neg]
      rintro (rfl | rfl)
      · simp at small
      · simp at large
  case h_2 => rfl

theorem afterMark_marked {x : Char} (mark : x = 'x' ∨ x = 'X') (apart : '_' ∉ cs) :
    sixteen.afterMark ('0' :: x :: cs) = cs := by
  rw [afterMark.eq_2, if_pos mark]
  rintro rest rfl
  simp at apart

/-- What is left behind a mark, if there is one, is a string of digits. -/
theorem magnitude?_of_read? {text : List Char} (digits : b.afterMark text = cs) (full : cs ≠ [])
    (h : b.read? cs = some n) :
    b.magnitude? text = if b = ten ∧ maxDecimalDigits < cs.length then none else some n := by
  have apart : '_' ∉ cs := not_mem_of_read? h (by decide)
  obtain ⟨ds, read, rfl⟩ := Option.map_eq_some_iff.mp h
  have length : ds.length = cs.length := by
    simpa using (congrArg List.length (mapM_eq_some_iff.mp read)).symm
  rw [magnitude?, digits, digits?_eq_mapM full apart, read, ← length]
  rfl

theorem trimChars_of_none {p : Char → Bool} (h : ∀ c ∈ cs, p c = false) : trimChars p cs = cs := by
  have nothing {l : List Char} (h : ∀ c ∈ l, p c = false) : l.dropWhile p = l := by
    rw [List.dropWhile_eq_self_iff]
    intro positive
    simp [h l[0]]
  rw [trimChars, nothing h, nothing (by simpa using h), List.reverse_reverse]

theorem parse?_of_solid (solid : ∀ c ∈ cs, IsSolid c) :
    b.parse? cs = (b.magnitude? cs).map Int.ofNat := by
  have same : cs.map plain = cs :=
    (List.map_congr_left fun c mem => (solid c mem).itself).trans (List.map_id cs)
  have trimmed : trimChars isPlainBlank cs = cs :=
    trimChars_of_none fun c mem => (solid c mem).visible
  rw [parse?, same, trimmed]
  split
  · exact absurd rfl (solid '-' List.mem_cons_self).unsigned.1
  · exact absurd rfl (solid '+' List.mem_cons_self).unsigned.2
  · rfl

theorem parse?_of_read? (mark : List Char) (solid : ∀ c ∈ mark, IsSolid c)
    (digits : b.afterMark (mark ++ cs) = cs) (full : cs ≠ []) (h : b.read? cs = some n) :
    b.parse? (mark ++ cs) =
      if b = ten ∧ maxDecimalDigits < cs.length then none else some (Int.ofNat n) := by
  have solid (c : Char) (mem : c ∈ mark ++ cs) : IsSolid c := by
    obtain there | here := List.mem_append.mp mem
    · exact solid c there
    · obtain ⟨d, digit⟩ := digit_of_read? h here
      exact isSolid_of_digit? digit
  rw [parse?_of_solid solid, magnitude?_of_read? digits full h]
  split <;> rfl

end Text.Base

/-! ## Numerals -/

/-- A text that holds the digits of `n`, letters in any case, with zeros in front or without. -/
def Text.IsNumeral (b : Text.Base) (n : Nat) (s : String) : Prop :=
  ∃ zeros : Nat, s.toList.map Char.toLower = List.replicate zeros '0' ++ Nat.toDigits b.value n

namespace Text.IsNumeral

variable {b : Base} {n : Nat} {s : String}

theorem read?_eq (h : IsNumeral b n s) : b.read? s.toList = some n := by
  obtain ⟨zeros, text⟩ := h
  rw [← Base.read?_toLower, text, Base.read?_zeros, Base.read?_toDigits]

theorem toList_ne_nil (h : IsNumeral b n s) : s.toList ≠ [] := by
  obtain ⟨zeros, text⟩ := h
  intro empty
  simp [empty, Nat.toDigits_ne_nil] at text

theorem not_mem (h : IsNumeral b n s) {x : Char} (none : digitValue? x = none) : x ∉ s.toList :=
  Base.not_mem_of_read? h.read?_eq none

/-- A numeral alone is read as its number, unless it has too many decimal digits. -/
theorem parse?_eq (h : IsNumeral b n s) :
    b.parse? s.toList =
      if b = .ten ∧ maxDecimalDigits < s.length then none else some (Int.ofNat n) := by
  have same : b.afterMark s.toList = s.toList :=
    Base.afterMark_of_unmarked (h.not_mem (by decide)) (h.not_mem (by decide))
  rw [← String.length_toList]
  exact Base.parse?_of_read? [] (by simp) same h.toList_ne_nil h.read?_eq

/-- Behind a mark it is read as its number, too. -/
theorem parse?_marked (h : IsNumeral .sixteen n s) {x : Char} (mark : x = 'x' ∨ x = 'X') :
    Base.sixteen.parse? ('0' :: x :: s.toList) = some (Int.ofNat n) := by
  have zero : Base.IsSolid '0' := ⟨by decide, by decide, by decide⟩
  have letter : Base.IsSolid x := by
    obtain rfl | rfl := mark <;> exact ⟨by decide, by decide, by decide⟩
  have solid : ∀ c ∈ ['0', x], Base.IsSolid c := by simp [zero, letter]
  have digits := Base.afterMark_marked mark (h.not_mem (x := '_') (by decide))
  exact Base.parse?_of_read? ['0', x] solid digits h.toList_ne_nil h.read?_eq

end Text.IsNumeral

end Chip8
