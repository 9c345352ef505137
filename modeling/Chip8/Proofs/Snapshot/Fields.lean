import Chip8.Snapshot.Field
import Mathlib.Data.List.GetD

/-!
# Fields of a list of bytes

Where the numbers of a snapshot are bytes, every field that is read is made of bytes that stand at
its place: a single number is one byte, a pair is a word of two, and a block is a `slice`. A
field is refused exactly when the list ends before it.

Positions here are natural numbers. None of them comes near the bound of 64 bits, `farthest`.
-/

namespace Chip8.Snapshot

/-- The last position that can be looked at. -/
def farthest : Nat := 9223372036854775807

/-- The bytes from a place on, `count` of them or as many as there are. -/
def slice (raw : List UInt8) (start count : Nat) : List UInt8 := (raw.drop start).take count

/-- The word whose bytes stand at a place and behind it. -/
def wordAt (raw : List UInt8) (place : Nat) : UInt16 :=
  wordOfBytes (raw.getD place 0) (raw.getD (place + 1) 0)

/-! ## Slices -/

theorem length_slice {raw : List UInt8} {start count : Nat} (h : start + count ≤ raw.length) :
    (slice raw start count).length = count := by
  unfold slice
  rw [List.length_take, List.length_drop]
  omega

theorem slice_append (raw : List UInt8) (start a b : Nat) :
    slice raw start a ++ slice raw (start + a) b = slice raw start (a + b) := by
  unfold slice
  rw [List.take_add, List.drop_drop]

/-- A slice goes on where the one before it ends. -/
theorem slice_join (raw : List UInt8) {start a next b count : Nat} (h : next = start + a)
    (h' : count = a + b) :
    slice raw start a ++ slice raw next b = slice raw start count := by
  rw [h, h', slice_append]

/-- All that stands behind a place. -/
theorem slice_eq_drop {raw : List UInt8} {start count : Nat} (h : raw.length = start + count) :
    slice raw start count = raw.drop start := by
  rw [slice, List.take_of_length_le]
  rw [List.length_drop]
  omega

theorem slice_one {raw : List UInt8} {start : Nat} (h : start < raw.length) :
    slice raw start 1 = [raw.getD start 0] := by
  unfold slice
  rw [List.drop_eq_getElem_cons h, List.take_succ_cons, List.take_zero, List.getD_eq_getElem _ _ h]

theorem slice_two {raw : List UInt8} {start : Nat} (h : start + 1 < raw.length) :
    slice raw start 2 = [raw.getD start 0, raw.getD (start + 1) 0] := by
  rw [← slice_append raw start 1 1, slice_one (by omega), slice_one h]
  rfl

/-! ## Words -/

/-- A word is saved as the two bytes it was read from. -/
theorem bytes_wordAt {raw : List UInt8} {place : Nat} (h : place + 1 < raw.length) :
    [highByte (wordAt raw place), lowByte (wordAt raw place)] = slice raw place 2 := by
  rw [wordAt, highByte_wordOfBytes, lowByte_wordOfBytes, slice_two h]

/-! ## Single numbers -/

theorem length_numbers (raw : List UInt8) : (numbers raw).length = raw.length :=
  List.length_map _

/-- There is a number where there is a byte. -/
theorem numberAt_numbers {raw : List UInt8} {place : Nat} (h : place < raw.length)
    (near : place ≤ farthest) :
    numberAt (numbers raw) place = .ok ((raw.getD place 0).toNat : Int) := by
  have position : isPosition place = true := by
    unfold isPosition farthest at *
    rw [Bool.and_eq_true, decide_eq_true_eq, decide_eq_true_eq]
    omega
  have there : (numbers raw)[place]? = some ((raw.getD place 0).toNat : Int) := by
    rw [numbers, List.getElem?_map, List.getElem?_eq_getElem h, List.getD_eq_getElem _ _ h]
    rfl
  simp only [numberAt, if_neg (show ¬ (place : Int) < 0 by omega), position, Int.toNat_natCast,
    there]
  rfl

/-- Nothing is found behind the end. -/
theorem lt_length_of_numberAt {raw : List UInt8} {place : Nat} {n : Int}
    (h : numberAt (numbers raw) place = .ok n) :
    place < raw.length ∧ n = (raw.getD place 0).toNat := by
  -- beyond 64 bits a position is refused before anything is looked up
  by_cases near : place ≤ farthest
  · by_cases inside : place < raw.length
    · rw [numberAt_numbers inside near] at h
      exact ⟨inside, (Except.ok.inj h).symm⟩
    · have nothing : (numbers raw)[place]? = none := by
        rw [List.getElem?_eq_none_iff, length_numbers]
        omega
      simp only [numberAt, if_neg (show ¬ (place : Int) < 0 by omega), Int.toNat_natCast,
        nothing] at h
      split at h <;> cases h
  · have far : isPosition place = false := by
      unfold isPosition
      unfold farthest at near
      rw [Bool.and_eq_false_iff, decide_eq_false_iff_not, decide_eq_false_iff_not]
      omega
    simp only [numberAt, far] at h
    cases h

/-! ## Pairs -/

theorem pairAt_numbers {raw : List UInt8} {place : Nat} (h : place + 1 < raw.length)
    (near : place + 1 ≤ farthest) :
    pairAt (numbers raw) place = .ok ((wordAt raw place).toNat : Int) := by
  have low := (raw.getD (place + 1) 0).toNat_lt
  have high : numberAt (numbers raw) place = .ok _ := numberAt_numbers (by omega) (by omega)
  have next : numberAt (numbers raw) ((place : Int) + 1) = .ok _ := numberAt_numbers h near
  rw [pairAt, high, next, wordAt, toNat_wordOfBytes, ← union_byte _ _ low]
  rfl

theorem lt_length_of_pairAt {raw : List UInt8} {place : Nat} {n : Int}
    (h : pairAt (numbers raw) place = .ok n) : place + 1 < raw.length := by
  unfold pairAt at h
  cases high : numberAt (numbers raw) place with
  | error e =>
      rw [high] at h
      cases h
  | ok a =>
      cases low : numberAt (numbers raw) ((place : Int) + 1) with
      | error e =>
          rw [high, low] at h
          cases h
      | ok b => exact (lt_length_of_numberAt low).1

/-! ## Blocks -/

theorem clamp_of_nonneg (length place : Nat) : clamp length place = min place length := by
  unfold clamp
  rw [if_neg (by omega), Int.toNat_natCast]

/-- A block of bytes is a slice, cut off where the list ends. -/
theorem block_numbers (raw : List UInt8) (place count : Nat) :
    block (numbers raw) place count = numbers (slice raw place count) := by
  have cut : (raw.take (min (place + count) raw.length)).drop (min place raw.length) =
      slice raw place count := by
    unfold slice
    rw [List.drop_take]
    -- behind the end both sides are empty
    by_cases h : place ≤ raw.length
    · rw [Nat.min_eq_left h, List.take_eq_take_iff, List.length_drop]
      omega
    · rw [List.drop_eq_nil_of_le (by omega), List.drop_eq_nil_of_le (by omega), List.take_nil,
        List.take_nil]
  unfold block
  rw [← Int.natCast_add, clamp_of_nonneg, clamp_of_nonneg, length_numbers, numbers,
    ← List.map_take, ← List.map_drop, cut, numbers]

/-- The numbers of bytes are bytes. -/
theorem bytes_numbers (raw : List UInt8) : bytes (numbers raw) = .ok raw := by
  have all : ((numbers raw).all fun n => 0 ≤ n && n < 256) = true := by
    rw [numbers, List.all_map, List.all_eq_true]
    intro b _
    have := b.toNat_lt
    simp only [Function.comp_apply, Bool.and_eq_true, decide_eq_true_eq]
    omega
  have back : (numbers raw).map byteOf = raw := by
    rw [numbers, List.map_map]
    exact List.map_id'' byteOf_toNat raw
  rw [bytes, if_pos all, back]

/-! ## Several fields -/

/-- A list is mapped without an error if none of its entries has one. -/
theorem mapM_ok {α β ε : Type} {f : α → Except ε β} {g : α → β} {l : List α}
    (h : ∀ a ∈ l, f a = .ok (g a)) : l.mapM f = .ok (l.map g) := by
  induction l with
  | nil => rfl
  | cons a l ih =>
      rw [List.mapM_cons, h a List.mem_cons_self,
        ih fun b hb => h b (List.mem_cons_of_mem a hb)]
      rfl

theorem ok_of_mapM {α β ε : Type} {f : α → Except ε β} {l : List α} {r : List β}
    (h : l.mapM f = .ok r) : ∀ a ∈ l, ∃ b, f a = .ok b := by
  induction l generalizing r with
  | nil => exact fun _ ha => (nomatch ha)
  | cons a l ih =>
      rw [List.mapM_cons] at h
      cases first : f a with
      | error e =>
          rw [first] at h
          cases h
      | ok b =>
          cases rest : l.mapM f with
          | error e =>
              rw [first, rest] at h
              cases h
          | ok bs =>
              intro c hc
              rcases List.mem_cons.mp hc with rfl | hc
              · exact ⟨b, first⟩
              · exact ih rest c hc

end Chip8.Snapshot
