import Chip8.Proofs.Listing.Execution
import Mathlib.Data.List.Infix

/-!
# A listing covers its block exactly once

The items of a listing lie end to end: each one starts where the bytes of the items before it end,
so no byte is left out and none is shown twice. Everything follows from two facts. A listing of two
blocks, the first of even length, is the listing of one and then of the other (`listing_append`),
and an item with some items before it covers the place behind their bytes
(`covers_of_listing_eq`). A limit on the number of items cuts the listing short and changes none of
the items that are left (`listing_take`).
-/

namespace Chip8

/-! ## Two blocks -/

/-- A listing has an item for each pair of bytes and one for a byte that is left over. -/
theorem length_listing (address : Int) (data : List UInt8) :
    (listing address data).length = (data.length + 1) / 2 := by
  fun_induction listing address data with
  | case1 address high low rest ih =>
      rw [List.length_cons, ih, List.length_cons, List.length_cons]
      omega
  | case2 => simp
  | case3 => rfl

/-- **Blocks are listed one after the other**, if no pair lies across their border. -/
theorem listing_append (address : Int) {data : List UInt8} (even : data.length % 2 = 0)
    (behind : List UInt8) :
    listing address (data ++ behind) =
      listing address data ++ listing (address + data.length) behind := by
  fun_induction listing address data with
  | case1 address high low rest ih =>
      have border : address + 2 + rest.length = address + (high :: low :: rest).length := by
        rw [List.length_cons, List.length_cons]
        omega
      have rest : rest.length % 2 = 0 := by
        rw [List.length_cons, List.length_cons] at even
        omega
      rw [List.cons_append, List.cons_append, listing, ih rest, border]
      rfl
  | case2 address b => cases even
  | case3 address =>
      rw [List.length_nil, Int.natCast_zero, Int.add_zero]
      rfl

/-- The first pairs of a block are listed as the first items of its listing. -/
theorem listing_take (address : Int) (data : List UInt8) (n : Nat) :
    listing address (data.take (2 * n)) = (listing address data).take n := by
  rcases Nat.lt_or_ge data.length (2 * n) with short | long
  · rw [List.take_of_length_le (Nat.le_of_lt short),
      List.take_of_length_le (by rw [length_listing]; omega)]
  · have pairs : (data.take (2 * n)).length = 2 * n := by
      rw [List.length_take, Nat.min_eq_left long]
    have count : (listing address (data.take (2 * n))).length = n := by
      rw [length_listing, pairs]
      omega
    have halves := listing_append address (by rw [pairs, Nat.mul_mod_right])
      (data.drop (2 * n))
    rw [List.take_append_drop] at halves
    rw [halves, List.take_left' count]

/-! ## Places -/

/-- **Items lie end to end**: an item covers the place behind the bytes of the items before it. -/
theorem covers_of_listing_eq {address : Int} {data : List UInt8} {before after : List ListingItem}
    {item : ListingItem} (h : listing address data = before ++ item :: after) :
    Covers address data (before.flatMap ListingItem.bytes).length item := by
  fun_induction listing address data generalizing before with
  | case1 address high low rest ih =>
      cases before with
      | nil =>
          rw [← (List.cons.inj h).1]
          exact .start address high low rest
      | cons pair before =>
          obtain ⟨rfl, later⟩ := List.cons.inj h
          have place : ((ListingItem.ofPair address high low :: before).flatMap
              ListingItem.bytes).length = (before.flatMap ListingItem.bytes).length + 2 := by
            rw [List.flatMap_cons, List.length_append, Nat.add_comm]
            rfl
          rw [place]
          exact (ih later).behind high low
  | case2 address b =>
      cases before with
      | nil =>
          rw [← (List.cons.inj h).1]
          exact .single address b
      | cons _ before =>
          have none := (List.cons.inj h).2
          cases before <;> cases none
  | case3 => cases before <;> cases h

/-- An item shows what a block has at some place: the word there, or a byte that nothing follows.
It is the item that is listed for this place alone. -/
structure ListingItem.Shows (item : ListingItem) (start : Int) (data : List UInt8) (place : Nat) :
    Prop where
  address : item.address = start + place
  inside : place < data.length
  alone : listingItemAt data item.address place = .ok item
  word : place + 1 < data.length → item.size = 2 ∧
    item.opcode = (data.getD place 0).toNat * 256 + (data.getD (place + 1) 0).toNat
  byte : place + 1 = data.length → item.size = 1 ∧ item.assembly.mnemonic = "DB" ∧
    item.opcode = (data.getD place 0).toNat

theorem Covers.shows {start : Int} {data : List UInt8} {place : Nat} {item : ListingItem}
    (h : Covers start data place item) : item.Shows start data place := by
  have natural : ¬ (place : Int) < 0 := Int.not_lt.mpr (Int.natCast_nonneg place)
  cases h with
  | pair high low first second =>
      obtain ⟨inside, high⟩ := List.getElem?_eq_some_iff.mp first
      obtain ⟨room, low⟩ := List.getElem?_eq_some_iff.mp second
      refine ⟨rfl, inside, ?_, fun _ => ⟨rfl, ?_⟩, fun ends => absurd ends (Nat.ne_of_lt room)⟩
      · rw [listingItemAt, if_neg natural, Int.toNat_natCast, List.drop_eq_getElem_cons inside,
          List.drop_eq_getElem_cons room, high, low]
        rfl
      · rw [ListingItem.opcode_ofPair, toNat_wordOfBytes, List.getD_eq_getElem?_getD,
          List.getD_eq_getElem?_getD, first, second]
        rfl
  | last b here ends =>
      obtain ⟨inside, b⟩ := List.getElem?_eq_some_iff.mp here
      refine ⟨rfl, inside, ?_, fun room => absurd room (by omega), fun _ => ⟨rfl, rfl, ?_⟩⟩
      · rw [listingItemAt, if_neg natural, Int.toNat_natCast, List.drop_eq_getElem_cons inside,
          List.drop_eq_nil_of_le (Nat.le_of_eq ends), b]
        rfl
      · rw [ListingItem.opcode_ofByte, List.getD_eq_getElem?_getD, here]
        rfl

/-! ## Even and odd blocks -/

/-- A block of even length is listed in pairs. -/
theorem size_of_even {address : Int} {data : List UInt8} (even : data.length % 2 = 0)
    {item : ListingItem} (h : item ∈ listing address data) : item.size = 2 := by
  obtain ⟨k, covers⟩ := covers_of_mem_listing h
  cases covers with
  | pair => rfl
  | last _ _ ends => omega

/-- The last byte of a block of odd length is listed by itself, behind pairs. -/
theorem listing_odd (address : Int) {data : List UInt8} (odd : data.length % 2 = 1) :
    ∃ pairs b, listing address data = pairs ++ [.ofByte (address + (data.length - 1 : Nat)) b] ∧
      ∀ item ∈ pairs, item.size = 2 := by
  have some : data ≠ [] := by
    rintro rfl
    cases odd
  have length := data.length_dropLast
  have even : data.dropLast.length % 2 = 0 := by omega
  have halves := listing_append address even [data.getLast some]
  rw [List.dropLast_concat_getLast, length] at halves
  exact ⟨_, _, halves, fun _ => size_of_even even⟩

/-! ## Limits -/

/-- A limit leaves the first items. -/
theorem listingUpTo_some (n start : Int) (data : List UInt8) :
    listingUpTo (some n) start data = (listing start data).take n.toNat :=
  listing_take start data n.toNat

theorem listingUpTo_isPrefix (count : Option Int) (start : Int) (data : List UInt8) :
    listingUpTo count start data <+: listing start data := by
  cases count with
  | none => exact List.prefix_rfl
  | some n =>
      rw [listingUpTo_some]
      exact List.take_prefix _ _

/-- The number of items that a limit leaves of the listing of a block, or all without a limit. -/
def itemCount (count : Option Int) (data : List UInt8) : Int :=
  match count with
  | none => ((data.length + 1) / 2 : Nat)
  | some n => min ((data.length + 1) / 2 : Nat) (max n 0)

theorem length_listingUpTo (count : Option Int) (start : Int) (data : List UInt8) :
    ((listingUpTo count start data).length : Int) = itemCount count data := by
  cases count with
  | none => exact congrArg Nat.cast (length_listing start data)
  | some n =>
      rw [listingUpTo_some, List.length_take, length_listing, itemCount]
      omega

/-- The items go through a block from front to back, as many of them as the limit leaves. -/
structure Lists (count : Option Int) (start : Int) (data : List UInt8)
    (items : List ListingItem) : Prop where
  number : (items.length : Int) = itemCount count data
  first : items <+: listingUpTo none start data
  bytes : items.flatMap ListingItem.bytes <+: data
  allBytes : count = none → items.flatMap ListingItem.bytes = data
  shows : ∀ before item after, items = before ++ item :: after →
    item.Shows start data (before.flatMap ListingItem.bytes).length
  even : data.length % 2 = 0 → ∀ item ∈ items, item.size = 2
  odd : count = none → data.length % 2 = 1 → ∃ pairs last, items = pairs ++ [last] ∧
    (∀ item ∈ pairs, item.size = 2) ∧ last.size = 1 ∧ last.assembly.mnemonic = "DB"

theorem lists_listingUpTo (count : Option Int) (start : Int) (data : List UInt8) :
    Lists count start data (listingUpTo count start data) := by
  have first := listingUpTo_isPrefix count start data
  refine ⟨length_listingUpTo count start data, first, ?_, ?_, ?_, ?_, ?_⟩
  · have bytes := first.flatMap ListingItem.bytes
    rwa [listing_bytes] at bytes
  · rintro rfl
    exact listing_bytes start data
  · -- what the limit cuts off stands behind the item
    intro before item after items
    obtain ⟨rest, whole⟩ := first
    rw [items, List.append_assoc] at whole
    exact (covers_of_listing_eq whole.symm).shows
  · exact fun even item mem => size_of_even even (first.subset mem)
  · rintro rfl odd
    obtain ⟨pairs, b, items, sizes⟩ := listing_odd start odd
    exact ⟨pairs, _, items, sizes, rfl, rfl⟩

/-- **A block is covered exactly once.** Whatever the start address and the limit are, the items
are the first of the whole listing and as many as the limit leaves; their bytes, one item after the
other, are the first bytes of the block, and all of them without a limit; and every item is the one
of the place where the bytes before it end. Two blocks together, the first of even length, are
listed as one and then the other. -/
theorem listing_once :
    (∀ count start data, Lists count start data (listingUpTo count start data)) ∧
    ∀ start, ∀ d₁ d₂ : List UInt8, d₁.length % 2 = 0 →
      listingUpTo none start (d₁ ++ d₂) =
        listingUpTo none start d₁ ++ listingUpTo none (start + d₁.length) d₂ :=
  ⟨lists_listingUpTo, fun start _ d₂ even => listing_append start even d₂⟩

theorem callsHost_once :
    Lists none (-2) Emulator.callsHost
      [.ofPair (-2) 0x60 0x05, .ofPair 0 0x01 0x23, .ofByte 2 0xF0] ∧
    Lists (some 2) 0x200 Emulator.callsHost [.ofPair 0x200 0x60 0x05, .ofPair 0x202 0x01 0x23] ∧
    Lists (some (-1)) 0x200 Emulator.callsHost [] ∧
    listingUpTo none 0 ([0x60, 0x05] ++ [0x01, 0x23, 0xF0]) =
      listingUpTo none 0 [0x60, 0x05] ++ listingUpTo none 2 [0x01, 0x23, 0xF0] := by
  obtain ⟨lists, blocks⟩ := listing_once
  exact ⟨lists none (-2) _, lists (some 2) 0x200 _, lists (some (-1)) 0x200 _,
    blocks 0 [0x60, 0x05] [0x01, 0x23, 0xF0] (by decide)⟩

end Chip8
