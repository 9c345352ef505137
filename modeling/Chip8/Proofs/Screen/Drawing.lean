import Mathlib.Data.List.Nodup
import Chip8.Screen.Sprite
import Chip8.Screen.View

/-!
# Drawing over and over

A drawing turns pixels over, and a pixel that is turned over twice is as it was. So all that a list
of drawings leaves behind is how often each pixel was landed on (`lit_drawAll`): their order does
not matter, and a list that is drawn twice leaves nothing behind, also where sprites lap over
themselves at the edges.

The answer of a drawing is given while the pixels change. It says something of the screen as it was
before only where no two bits of the sprite land on the same pixel (`Spread`).
-/

namespace Chip8

/-- A sprite and where to draw it. -/
structure Drawing where
  x : Int
  y : Int
  rows : List UInt8
  clip : Bool
  deriving DecidableEq, Repr

namespace Drawing

variable (width height : Nat) (d : Drawing)

/-- The pixel that a bit of the sprite lands on; the bit is given by its column and row. -/
def landingOf (bit : Nat × Nat) : Option (Fin width × Fin height) :=
  match landing d.clip width ((d.x % width).toNat + bit.1),
    landing d.clip height ((d.y % height).toNat + bit.2) with
  | some px, some py => some (px, py)
  | _, _ => none

def landings : List (Fin width × Fin height) := Screen.landings width height d.x d.y d.rows d.clip

/-- No two set bits land on the same pixel. -/
def Spread : Prop :=
  ∀ b ∈ spriteBits d.rows, ∀ b' ∈ spriteBits d.rows, (d.landingOf width height b).isSome →
    d.landingOf width height b = d.landingOf width height b' → b = b'

/-- Some set bit lands on the screen. -/
def Lands : Prop := ∃ b ∈ spriteBits d.rows, (d.landingOf width height b).isSome

instance : Decidable (d.Spread width height) :=
  inferInstanceAs (Decidable (∀ b ∈ spriteBits d.rows, ∀ b' ∈ spriteBits d.rows, _ → _ → _))

instance : Decidable (d.Lands width height) :=
  inferInstanceAs (Decidable (∃ b ∈ spriteBits d.rows, _))

variable {width height d}

theorem landings_eq :
    d.landings width height = (spriteBits d.rows).filterMap (d.landingOf width height) := rfl

theorem lands_iff : d.Lands width height ↔ ∃ p, p ∈ d.landings width height := by
  simp only [Lands, landings_eq, List.mem_filterMap, Option.isSome_iff_exists]
  constructor
  · rintro ⟨b, hb, p, hp⟩
    exact ⟨p, b, hb, hp⟩
  · rintro ⟨p, b, hb, hp⟩
    exact ⟨b, hb, p, hp⟩

theorem nodup_spriteBits (rows : List UInt8) : (spriteBits rows).Nodup := by
  refine List.nodup_flatMap.mpr ⟨?_, ?_⟩
  · rintro ⟨row, r⟩ -
    refine (List.nodup_range.filter _).map ?_
    intro c c' same
    exact congrArg Prod.fst same
  · -- bits of two rows differ in the number of the row
    have numbers : rows.zipIdx.Pairwise fun p q => p.2 ≠ q.2 := by
      apply List.pairwise_map.mp
      show (rows.zipIdx.map Prod.snd).Nodup
      rw [List.zipIdx_map_snd]
      exact List.nodup_range'
    refine numbers.imp ?_
    rintro ⟨row, r⟩ ⟨row', r'⟩ other b hb hb'
    obtain ⟨c, -, rfl⟩ := List.mem_map.mp hb
    obtain ⟨c', -, same⟩ := List.mem_map.mp hb'
    exact other (congrArg Prod.snd same).symm

theorem Spread.nodup (h : d.Spread width height) : (d.landings width height).Nodup := by
  rw [landings_eq, List.nodup_iff_pairwise_ne, List.pairwise_filterMap]
  refine (nodup_spriteBits d.rows).imp_of_mem ?_
  intro b b' hb hb' other p hp p' hp' same
  subst same
  exact other (h b hb b' hb' (hp ▸ rfl) (hp.trans hp'.symm))

end Drawing

namespace Screen

variable {width height : Nat} {s s' : Screen width height}

/-! ## Pixels -/

theorem rows_of_lit (h : ∀ x y, s.lit x y = s'.lit x y) : s.rows = s'.rows := by
  apply Table.ext
  intro y
  apply Table.ext
  intro x
  exact h x y

theorem mem_pixels {p : Bool} : p ∈ s.pixels ↔ ∃ x y, s.lit x y = p := by
  simp only [pixels, toRows, List.mem_flatten, List.mem_map, Vector.mem_toList_iff]
  constructor
  · rintro ⟨_, ⟨row, hrow, rfl⟩, hp⟩
    obtain ⟨y, hy, rfl⟩ := Vector.mem_iff_getElem.mp hrow
    obtain ⟨x, hx, rfl⟩ := Vector.mem_iff_getElem.mp (Vector.mem_toList_iff.mp hp)
    exact ⟨⟨x, hx⟩, ⟨y, hy⟩, rfl⟩
  · rintro ⟨x, y, rfl⟩
    refine ⟨_, ⟨s.rows.get y, Vector.getElem_mem y.isLt, rfl⟩, ?_⟩
    exact Vector.mem_toList_iff.mpr (Vector.getElem_mem x.isLt)

theorem isClear_iff : s.isClear ↔ ∀ x y, s.lit x y = false := by
  have clear : s.isClear ↔ true ∉ s.pixels := by simp [isClear]
  rw [clear, mem_pixels]
  simp

/-! ## What drawings leave behind -/

def drawn (s : Screen width height) (d : Drawing) : Screen width height × Bool :=
  s.draw d.x d.y d.rows d.clip

/-- The screen after drawings one after the other. -/
def drawAll (s : Screen width height) (ds : List Drawing) : Screen width height :=
  ds.foldl (fun s d => (s.drawn d).1) s

theorem odd_add (a b : Nat) :
    decide ((a + b) % 2 = 1) = (decide (a % 2 = 1) ^^ decide (b % 2 = 1)) := by
  rcases Nat.mod_two_eq_zero_or_one a with ha | ha
  · simp [Nat.add_mod, ha]
  · rcases Nat.mod_two_eq_zero_or_one b with hb | hb <;> simp [Nat.add_mod, ha, hb]

theorem lit_drawn (s : Screen width height) (d : Drawing) (x : Fin width) (y : Fin height) :
    (s.drawn d).1.lit x y =
      (s.lit x y ^^ decide ((d.landings width height).count (x, y) % 2 = 1)) :=
  lit_flipAll s _ x y

theorem lit_drawAll (s : Screen width height) (ds : List Drawing) (x : Fin width)
    (y : Fin height) :
    (s.drawAll ds).lit x y =
      (s.lit x y ^^
        decide ((ds.flatMap (Drawing.landings width height)).count (x, y) % 2 = 1)) := by
  induction ds generalizing s with
  | nil => simp [drawAll]
  | cons d rest ih =>
      have later : (s.drawAll (d :: rest)).lit x y = ((s.drawn d).1.drawAll rest).lit x y := rfl
      rw [later, ih, lit_drawn, List.flatMap_cons, List.count_append, odd_add, Bool.xor_assoc]

theorem rows_drawAll_perm {ds ds' : List Drawing} (h : ds.Perm ds') :
    (s.drawAll ds').rows = (s.drawAll ds).rows := by
  apply rows_of_lit
  intro x y
  rw [lit_drawAll, lit_drawAll, (h.flatMap_right _).count_eq]

theorem rows_drawAll_twice {ds ds' : List Drawing} (h : ds'.Perm (ds ++ ds)) :
    (s.drawAll ds').rows = s.rows := by
  apply rows_of_lit
  intro x y
  rw [lit_drawAll, (h.flatMap_right _).count_eq, List.flatMap_append, List.count_append, odd_add,
    Bool.xor_self, Bool.xor_false]

/-! ## What a drawing answers -/

theorem flipAll_hits_iff {ps : List (Fin width × Fin height)} (h : ps.Nodup) :
    (s.flipAll ps).2 = true ↔ ∃ p ∈ ps, s.lit p.1 p.2 = true := by
  induction ps generalizing s with
  | nil => simp [flipAll]
  | cons p rest ih =>
      rcases p with ⟨px, py⟩
      obtain ⟨once, others⟩ := List.nodup_cons.mp h
      -- the later landings meet the pixels as they were: none of them is the first one again
      have untouched : ∀ q ∈ rest, (s.flip px py).lit q.1 q.2 = s.lit q.1 q.2 := by
        rintro ⟨qx, qy⟩ hq
        have other : ¬ (px = qx ∧ py = qy) := by
          rintro ⟨rfl, rfl⟩
          exact once hq
        rw [lit_flip, decide_eq_false other, Bool.xor_false]
      show (s.lit px py || ((s.flip px py).flipAll rest).2) = true ↔ _
      rw [Bool.or_eq_true, ih others, List.exists_mem_cons_iff]
      refine or_congr Iff.rfl (exists_congr fun q => and_congr_right fun hq => ?_)
      rw [untouched q hq]

variable {d : Drawing}

theorem drawn_hits_iff (h : d.Spread width height) :
    (s.drawn d).2 = true ↔ ∃ p ∈ d.landings width height, s.lit p.1 p.2 = true :=
  flipAll_hits_iff h.nodup

theorem lit_drawn_of_mem (h : d.Spread width height) {p : Fin width × Fin height}
    (hp : p ∈ d.landings width height) : (s.drawn d).1.lit p.1 p.2 = !s.lit p.1 p.2 := by
  rw [lit_drawn, List.count_eq_one_of_mem h.nodup hp]
  simp

/-- **Drawing is an involution in any order.** Drawings leave the same pixels behind in whatever
order they are made, and all of them made twice leave the pixels as they were. A sprite whose bits
land apart from each other, drawn twice, goes over a lit pixel exactly if one of its bits lands on
the screen; on a clear screen that is the second time, and then the screen is clear again. -/
theorem drawing_involution (s : Screen width height) :
    (∀ ds ds' : List Drawing, ds.Perm ds' → (s.drawAll ds').rows = (s.drawAll ds).rows) ∧
    (∀ ds ds' : List Drawing, ds'.Perm (ds ++ ds) → (s.drawAll ds').rows = s.rows) ∧
    ∀ d : Drawing, d.Spread width height →
      ((s.drawn d).2 = true ∨ ((s.drawn d).1.drawn d).2 = true ↔ d.Lands width height) ∧
      (s.isClear →
        (s.drawn d).2 = false ∧ (((s.drawn d).1.drawn d).2 = true ↔ d.Lands width height) ∧
          ((s.drawn d).1.drawn d).1.isClear) := by
  refine ⟨fun ds ds' => rows_drawAll_perm, fun ds ds' => rows_drawAll_twice, ?_⟩
  intro d spread
  -- each landing meets a lit pixel the first time or, if it was dark, the second time
  have second : ((s.drawn d).1.drawn d).2 = true ↔
      ∃ p ∈ d.landings width height, s.lit p.1 p.2 = false := by
    rw [drawn_hits_iff spread]
    refine exists_congr fun p => and_congr_right fun hp => ?_
    rw [lit_drawn_of_mem spread hp, Bool.not_eq_true']
  rw [second, drawn_hits_iff spread, Drawing.lands_iff]
  constructor
  · constructor
    · rintro (⟨p, hp, -⟩ | ⟨p, hp, -⟩)
      · exact ⟨p, hp⟩
      · exact ⟨p, hp⟩
    · rintro ⟨p, hp⟩
      cases here : s.lit p.1 p.2 with
      | true => exact Or.inl ⟨p, hp, here⟩
      | false => exact Or.inr ⟨p, hp, here⟩
  · intro clear
    have dark := isClear_iff.mp clear
    refine ⟨?_, ⟨?_, ?_⟩, ?_⟩
    · rw [Bool.eq_false_iff, ne_eq, drawn_hits_iff spread]
      rintro ⟨p, -, lit⟩
      exact Bool.noConfusion ((dark p.1 p.2).symm.trans lit)
    · rintro ⟨p, hp, -⟩
      exact ⟨p, hp⟩
    · rintro ⟨p, hp⟩
      exact ⟨p, hp, dark p.1 p.2⟩
    · apply isClear_iff.mpr
      intro x y
      rw [lit_drawn, lit_drawn, dark, Bool.false_xor, Bool.xor_self]

/-- Three bits in a corner, on three sides of a small screen. -/
def overEdge : Drawing := ⟨5, 1, [0xC0, 0x80], false⟩

/-- Eight bits in a row of six pixels. -/
def foldedOver : Drawing := ⟨0, 0, [0xFF], false⟩

theorem overEdge_involution :
    ¬ foldedOver.Spread 6 2 ∧ overEdge.Spread 6 2 ∧ overEdge.Lands 6 2 ∧
      ((blank 6 2).drawAll [foldedOver, overEdge]).rows =
        ((blank 6 2).drawAll [overEdge, foldedOver]).rows ∧
      ((blank 6 2).drawAll [overEdge, foldedOver, foldedOver, overEdge]).rows =
        (blank 6 2).rows ∧
      ((blank 6 2).drawn overEdge).2 = false ∧
      (((blank 6 2).drawn overEdge).1.drawn overEdge).2 = true := by
  obtain ⟨anyOrder, twice, answers⟩ := drawing_involution (blank 6 2)
  have spread : overEdge.Spread 6 2 := by decide
  have lands : overEdge.Lands 6 2 := by decide
  obtain ⟨first, second, -⟩ := (answers overEdge spread).2 (by decide)
  refine ⟨by decide, spread, lands, ?_, ?_, first, second.mpr lands⟩
  · exact anyOrder [overEdge, foldedOver] [foldedOver, overEdge] (by decide)
  · exact twice [overEdge, foldedOver] _ (by decide)

end Screen

end Chip8
