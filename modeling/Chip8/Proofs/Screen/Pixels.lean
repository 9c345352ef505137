import Mathlib.Data.Fintype.Prod
import Chip8.Proofs.Screen.Drawing

/-!
# Drawing, pixel by pixel

The corner of a sprite wraps around the screen, and every bit has its place from there. A place
beyond an edge is dropped or reduced, and what is left is the position of the bit: a pixel. So what
a drawing does to a pixel is told by the set bits at it (`bitsAt`): it is turned over if they are
odd in number. Where no two set bits share a position, the answer of a drawing is told by the
pixels, too. And where no set bit is placed beyond an edge there is nothing to clip.
-/

namespace Chip8

/-! ## Landings -/

namespace Screen

variable {width height : Nat}

/-- A set bit of the sprite lies off the screen, before its position is reduced. -/
def Overhangs (width height : Nat) (x y : Int) (rows : List UInt8) : Prop :=
  ∃ bit ∈ spriteBits rows,
    width ≤ (x % width).toNat + bit.1 ∨ height ≤ (y % height).toNat + bit.2

instance (width height : Nat) (x y : Int) (rows : List UInt8) :
    Decidable (Overhangs width height x y rows) :=
  inferInstanceAs (Decidable (∃ bit ∈ spriteBits rows, _))

theorem landing_of_lt {size p : Nat} (h : p < size) (clip : Bool) :
    landing clip size p = some ⟨p, h⟩ := dif_pos h

theorem landing_eq_some_iff {clip : Bool} {size p : Nat} {q : Fin size} :
    landing clip size p = some q ↔ (if clip then p else p % size) = q.val := by
  have pos : 0 < size := Nat.zero_lt_of_lt q.isLt
  have bound := q.isLt
  by_cases inside : p < size
  · rw [landing_of_lt inside, Option.some.injEq, Fin.ext_iff, Nat.mod_eq_of_lt inside, ite_self]
  · cases clip with
    | true =>
        rw [landing, dif_neg inside, if_pos rfl, if_pos rfl]
        exact iff_of_false nofun fun same => inside (same ▸ bound)
    | false =>
        rw [landing, dif_neg inside, if_neg Bool.false_ne_true, dif_pos pos,
          if_neg Bool.false_ne_true, Option.some.injEq, Fin.ext_iff]

/-- Where no bit lies off the screen there is nothing to clip. -/
theorem draw_of_not_overhangs {x y : Int} {rows : List UInt8}
    (inside : ¬ Overhangs width height x y rows) (s : Screen width height) (clip clip' : Bool) :
    s.draw x y rows clip = s.draw x y rows clip' := by
  have same : landings width height x y rows clip = landings width height x y rows clip' := by
    unfold landings
    refine List.filterMap_congr ?_
    rintro ⟨c, r⟩ set
    have column : (x % width).toNat + c < width :=
      Nat.lt_of_not_le fun off => inside ⟨_, set, Or.inl off⟩
    have row : (y % height).toNat + r < height :=
      Nat.lt_of_not_le fun off => inside ⟨_, set, Or.inr off⟩
    dsimp only
    rw [landing_of_lt column, landing_of_lt column, landing_of_lt row, landing_of_lt row]
  unfold draw
  rw [same]

end Screen

namespace Drawing

open Screen

variable (width height : Nat) (d : Drawing)

/-! ## Bits and their positions -/

/-- Column and row of the set bits. Columns are counted from the most significant bit. -/
def setBits : Finset (Nat × Nat) :=
  (Finset.range 8 ×ˢ Finset.range d.rows.length).filter fun bit =>
    (d.rows.getD bit.2 0).toNat.testBit (7 - bit.1)

/-- The place of a bit, which may lie beyond the right or the lower edge. -/
def place (bit : Nat × Nat) : Int × Int := (d.x % width + bit.1, d.y % height + bit.2)

variable {width height}

/-- The pixel is the position of a bit: its place, if the sprite is clipped, or else the residue of
its place. -/
def At (p : Fin width × Fin height) (bit : Nat × Nat) : Prop :=
  if d.clip then
    (d.place width height bit).1 = p.1.val ∧ (d.place width height bit).2 = p.2.val
  else
    (d.place width height bit).1 % width = p.1.val ∧
      (d.place width height bit).2 % height = p.2.val

instance (p : Fin width × Fin height) (bit : Nat × Nat) : Decidable (d.At p bit) :=
  inferInstanceAs (Decidable (if d.clip = true then _ ∧ _ else _ ∧ _))

/-- The set bits whose position is the pixel. -/
def bitsAt (p : Fin width × Fin height) : Finset (Nat × Nat) := d.setBits.filter (d.At p)

variable (width height)

/-- No two set bits share a position. -/
def Apart : Prop := ∀ p : Fin width × Fin height, ∀ b ∈ d.bitsAt p, ∀ b' ∈ d.bitsAt p, b = b'

/-- No set bit is placed beyond an edge. -/
def Inside : Prop :=
  ∀ bit ∈ d.setBits, (d.place width height bit).1 < width ∧ (d.place width height bit).2 < height

instance : Decidable (d.Apart width height) :=
  inferInstanceAs (Decidable (∀ p : Fin width × Fin height, ∀ b ∈ d.bitsAt p, ∀ b' ∈ d.bitsAt p, _))

instance : Decidable (d.Inside width height) :=
  inferInstanceAs (Decidable (∀ bit ∈ d.setBits, _))

variable {width height d} {p : Fin width × Fin height} {bit : Nat × Nat}

theorem mem_setBits_iff :
    bit ∈ d.setBits ↔
      bit.1 < 8 ∧ ∃ row, d.rows[bit.2]? = some row ∧ row.toNat.testBit (7 - bit.1) := by
  rw [setBits, Finset.mem_filter, Finset.mem_product, Finset.mem_range, Finset.mem_range, and_assoc]
  refine and_congr_right fun _ => ?_
  rw [List.getD_eq_getElem?_getD]
  constructor
  · rintro ⟨inside, set⟩
    rw [List.getElem?_eq_getElem inside] at set ⊢
    exact ⟨_, rfl, set⟩
  · rintro ⟨row, there, set⟩
    rw [there]
    exact ⟨(List.getElem?_eq_some_iff.mp there).1, set⟩

/-- The bits that a drawing goes through are the set ones. -/
theorem mem_spriteBits_iff : bit ∈ spriteBits d.rows ↔ bit ∈ d.setBits := by
  obtain ⟨c, r⟩ := bit
  rw [mem_setBits_iff]
  simp only [spriteBits, spriteColumns, spriteBit, List.mem_flatMap, List.mem_map, List.mem_filter,
    List.mem_range, Prod.exists, List.mem_zipIdx_iff_getElem?, Prod.mk.injEq]
  constructor
  · rintro ⟨row, _, there, _, ⟨column, set⟩, rfl, rfl⟩
    exact ⟨column, row, there, set⟩
  · rintro ⟨column, row, there, set⟩
    exact ⟨row, r, there, c, ⟨column, set⟩, rfl, rfl⟩

theorem natCast_wrapped {size : Nat} (pos : 0 < size) (x : Int) :
    ((x % size).toNat : Int) = x % size :=
  Int.toNat_of_nonneg (Int.emod_nonneg x (by omega))

/-- A bit lands on its position. -/
theorem landingOf_eq_some_iff : d.landingOf width height bit = some p ↔ d.At p bit := by
  have column := natCast_wrapped (Nat.zero_lt_of_lt p.1.isLt) d.x
  have row := natCast_wrapped (Nat.zero_lt_of_lt p.2.isLt) d.y
  have both : d.landingOf width height bit = some p ↔
      landing d.clip width ((d.x % width).toNat + bit.1) = some p.1 ∧
        landing d.clip height ((d.y % height).toNat + bit.2) = some p.2 := by
    unfold landingOf
    cases landing d.clip width ((d.x % width).toNat + bit.1) with
    | none => exact iff_of_false nofun fun h => nomatch h.1
    | some px =>
        cases landing d.clip height ((d.y % height).toNat + bit.2) with
        | none => exact iff_of_false nofun fun h => nomatch h.2
        | some py => simp only [Option.some.injEq, Prod.ext_iff]
  rw [both, landing_eq_some_iff, landing_eq_some_iff, At, place]
  dsimp only
  rw [← column, ← row, ← Int.natCast_inj, ← Int.natCast_inj]
  cases d.clip with
  | true => rfl
  | false => rfl

theorem count_landings (p : Fin width × Fin height) :
    (d.landings width height).count p = (d.bitsAt p).card := by
  have same :
      ((spriteBits d.rows).filter fun bit => d.landingOf width height bit == some p).toFinset =
        d.bitsAt p := by
    ext bit
    rw [List.mem_toFinset, List.mem_filter, beq_iff_eq, landingOf_eq_some_iff, mem_spriteBits_iff,
      bitsAt, Finset.mem_filter]
  rw [landings_eq, List.count_filterMap, List.countP_eq_length_filter, ← same,
    List.toFinset_card_of_nodup ((nodup_spriteBits d.rows).filter _)]

/-! ## Sprites that do not lap over themselves -/

theorem Apart.spread (h : d.Apart width height) : d.Spread width height := by
  intro b hb b' hb' lands same
  obtain ⟨p, there⟩ := Option.isSome_iff_exists.mp lands
  have here : b ∈ d.bitsAt p :=
    Finset.mem_filter.mpr ⟨mem_spriteBits_iff.mp hb, landingOf_eq_some_iff.mp there⟩
  have here' : b' ∈ d.bitsAt p :=
    Finset.mem_filter.mpr ⟨mem_spriteBits_iff.mp hb', landingOf_eq_some_iff.mp (same ▸ there)⟩
  exact h p b here b' here'

/-- Clipped sprites never lap over themselves. -/
theorem apart_of_clip (clip : d.clip = true) : d.Apart width height := by
  intro p b hb b' hb'
  have here := (Finset.mem_filter.mp hb).2
  have here' := (Finset.mem_filter.mp hb').2
  rw [At, if_pos clip, place] at here here'
  refine Prod.ext ?_ ?_
  · omega
  · omega

theorem emod_add_inj {a size m n : Int} (hm : 0 ≤ m ∧ m < size) (hn : 0 ≤ n ∧ n < size)
    (same : (a + m) % size = (a + n) % size) : m = n := by
  have reduced : m % size = n % size := Int.emod_add_cancel_left.mp same
  rwa [Int.emod_eq_of_lt hm.1 hm.2, Int.emod_eq_of_lt hn.1 hn.2] at reduced

/-- Nor do sprites that are no larger than the screen. -/
theorem apart_of_small (wide : 8 ≤ width) (high : d.rows.length ≤ height) :
    d.Apart width height := by
  cases clip : d.clip with
  | true => exact apart_of_clip clip
  | false =>
      intro p b hb b' hb'
      obtain ⟨set, here⟩ := Finset.mem_filter.mp hb
      obtain ⟨set', here'⟩ := Finset.mem_filter.mp hb'
      rw [setBits, Finset.mem_filter, Finset.mem_product, Finset.mem_range, Finset.mem_range]
        at set set'
      rw [At, if_neg (by rw [clip]; decide), place] at here here'
      refine Prod.ext ?_ ?_
      · have columns := emod_add_inj (by omega) (by omega) (here.1.trans here'.1.symm)
        omega
      · have rows := emod_add_inj (by omega) (by omega) (here.2.trans here'.2.symm)
        omega

/-- A sprite whose eight columns and all rows have room is inside. -/
theorem inside_of_room (h : d.x % width + 8 ≤ width ∧ d.y % height + d.rows.length ≤ height) :
    d.Inside width height := by
  intro bit hbit
  rw [setBits, Finset.mem_filter, Finset.mem_product, Finset.mem_range, Finset.mem_range] at hbit
  rw [place]
  dsimp only
  omega

theorem Inside.not_overhangs (wide : 0 < width) (high : 0 < height) (h : d.Inside width height) :
    ¬ Screen.Overhangs width height d.x d.y d.rows := by
  rintro ⟨bit, hbit, off⟩
  have place := h bit (mem_spriteBits_iff.mp hbit)
  have column := natCast_wrapped wide d.x
  have row := natCast_wrapped high d.y
  rw [Drawing.place] at place
  dsimp only at place
  omega

end Drawing

namespace Screen

variable {width height : Nat} {d : Drawing}

/-! ## Pixels -/

/-- A pixel is turned over if an odd number of set bits is at it. -/
theorem lit_drawn_bitsAt (s : Screen width height) (d : Drawing) (x : Fin width) (y : Fin height) :
    (s.drawn d).1.lit x y = (s.lit x y ^^ decide ((d.bitsAt (x, y)).card % 2 = 1)) := by
  rw [lit_drawn, Drawing.count_landings]

theorem lit_drawn_of_bitsAt_empty {s : Screen width height} {x : Fin width} {y : Fin height}
    (none : d.bitsAt (x, y) = ∅) : (s.drawn d).1.lit x y = s.lit x y := by
  rw [lit_drawn_bitsAt, none, Finset.card_empty]
  exact Bool.xor_false _

/-- Where bits have positions of their own, going over a lit pixel is to make one dark. -/
theorem drawn_hits_iff_darkens (h : d.Apart width height) (s : Screen width height) :
    (s.drawn d).2 = true ↔ ∃ x y, s.lit x y = true ∧ (s.drawn d).1.lit x y = false := by
  rw [drawn_hits_iff h.spread]
  constructor
  · rintro ⟨⟨x, y⟩, there, lit⟩
    refine ⟨x, y, lit, ?_⟩
    rw [lit_drawn_of_mem h.spread there, lit]
    rfl
  · rintro ⟨x, y, lit, dark⟩
    refine ⟨(x, y), ?_, lit⟩
    -- a pixel that changes is landed on
    by_contra missed
    rw [lit_drawn, List.count_eq_zero_of_not_mem missed, lit] at dark
    exact Bool.noConfusion dark

/-- **A sprite is drawn pixel by pixel.** Every pixel is turned over if the set bits whose position
it is are odd in number, and is left alone if there are none. Clipped sprites, and those that are no
larger than the screen, have no two set bits with one position; then the drawing answers whether
some lit pixel went dark. A sprite that is placed inside the screen is drawn in the same way whether
it is clipped or not, and has the same answer. -/
theorem sprite_drawn_pixelwise (wide : 0 < width) (high : 0 < height) (s : Screen width height)
    (d : Drawing) :
    (∀ x y, (s.drawn d).1.lit x y = (s.lit x y ^^ decide ((d.bitsAt (x, y)).card % 2 = 1)) ∧
        (d.bitsAt (x, y) = ∅ → (s.drawn d).1.lit x y = s.lit x y)) ∧
      (d.clip = true ∨ 8 ≤ width ∧ d.rows.length ≤ height → d.Apart width height) ∧
      (d.Apart width height →
        ((s.drawn d).2 = true ↔ ∃ x y, s.lit x y = true ∧ (s.drawn d).1.lit x y = false)) ∧
      (d.x % width + 8 ≤ width ∧ d.y % height + d.rows.length ≤ height → d.Inside width height) ∧
      (d.Inside width height →
        s.drawn { d with clip := true } = s.drawn { d with clip := false }) := by
  refine ⟨fun x y => ⟨lit_drawn_bitsAt s d x y, lit_drawn_of_bitsAt_empty⟩, ?_,
    fun apart => drawn_hits_iff_darkens apart s, Drawing.inside_of_room, fun inside => ?_⟩
  · rintro (clip | ⟨wide, high⟩)
    · exact Drawing.apart_of_clip clip
    · exact Drawing.apart_of_small wide high
  · exact draw_of_not_overhangs (inside.not_overhangs wide high) s true false

/-- Eight bits in a row and three below them, on a screen with six columns. -/
def lapped : Drawing := ⟨-2, 7, [0xFF, 0xE0], false⟩

theorem lapped_drawn_pixelwise :
    ¬ lapped.Apart 6 2 ∧
      ((lapped.bitsAt ((4, 1) : Fin 6 × Fin 2)).card = 2 ∧
        ((blank 6 2).drawn lapped).1.lit 4 1 = false) ∧
      ((lapped.bitsAt ((3, 1) : Fin 6 × Fin 2)).card = 1 ∧
        ((blank 6 2).drawn lapped).1.lit 3 1 = true) ∧
      (overEdge.Apart 6 2 ∧ (((blank 6 2).drawn lapped).1.drawn overEdge).2 = true) ∧
      overEdge.Inside 7 3 ∧
        (blank 7 3).drawn { overEdge with clip := true } =
          (blank 7 3).drawn { overEdge with clip := false } := by
  obtain ⟨pixel, -⟩ := sprite_drawn_pixelwise (by decide) (by decide) (blank 6 2) lapped
  obtain ⟨-, -, answer, -⟩ :=
    sprite_drawn_pixelwise (by decide) (by decide) ((blank 6 2).drawn lapped).1 overEdge
  obtain ⟨-, -, -, -, unclipped⟩ :=
    sprite_drawn_pixelwise (by decide) (by decide) (blank 7 3) overEdge
  have even : (lapped.bitsAt ((4, 1) : Fin 6 × Fin 2)).card = 2 := by decide
  have odd : (lapped.bitsAt ((3, 1) : Fin 6 × Fin 2)).card = 1 := by decide
  have apart : overEdge.Apart 6 2 := by decide
  have inside : overEdge.Inside 7 3 := by decide
  refine ⟨by decide, ⟨even, ?_⟩, ⟨odd, ?_⟩, ⟨apart, ?_⟩, inside, unclipped inside⟩
  · rw [(pixel 4 1).1, even]
    rfl
  · rw [(pixel 3 1).1, odd]
    rfl
  · exact (answer apart).mpr ⟨0, 1, by decide, by decide⟩

end Screen

end Chip8
