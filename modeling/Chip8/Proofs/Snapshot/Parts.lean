import Chip8.Memory
import Chip8.Proofs.Snapshot.Fields
import Chip8.Screen.View
import Chip8.Timers
import Mathlib.Data.List.OfFn

/-!
# Timers, memory and screen in a snapshot

Each part has the same three facts: what it becomes where the list of bytes goes far enough, that
otherwise it is refused, and that it is saved again as the bytes it was restored from. Only the
screen is saved differently, because every byte but zero stands for a lit pixel: its bytes are
`tidy` then.
-/

namespace Chip8

open Chip8.Snapshot

/-! ## Timers -/

namespace Timers

variable {t : Timers} {raw : List UInt8} {place : Nat}

/-- Restoring changes the two timers and may tell the listener, whatever the data is. -/
theorem restore_frame (t : Timers) (data : List Int) (offset : Int) :
    ∃ delay sound told,
      (t.restore data offset).1 = { t with delay := delay, sound := sound, told := told } := by
  unfold restore
  split
  · exact ⟨_, _, _, rfl⟩
  · dsimp only
    split
    · exact ⟨_, _, _, rfl⟩
    · unfold setSound tell
      split
      · exact ⟨_, _, _, rfl⟩
      · exact ⟨_, _, _, rfl⟩

theorem restore_eq_ok_iff {t t' : Timers} {data : List Int} {offset size : Int} :
    t.restore data offset = (t', .ok size) ↔
      ∃ delay sound, numberAt data offset = .ok delay ∧ numberAt data (offset + 1) = .ok sound ∧
        t' = { t with delay := delay }.setSound sound ∧ size = 2 := by
  unfold restore
  cases numberAt data offset with
  | error e => exact ⟨fun h => (nomatch h), fun ⟨_, _, h, _⟩ => (nomatch h)⟩
  | ok delay =>
      dsimp only
      cases numberAt data (offset + 1) with
      | error e => exact ⟨fun h => (nomatch h), fun ⟨_, _, _, h, _⟩ => (nomatch h)⟩
      | ok sound =>
          constructor
          · intro h
            cases h
            exact ⟨delay, sound, rfl, rfl, rfl, rfl⟩
          · rintro ⟨_, _, hd, hs, rfl, rfl⟩
            cases hd
            cases hs
            rfl

/-- The timers whose bytes stand at a place. -/
def withBytesAt (t : Timers) (raw : List UInt8) (place : Nat) (told : List Bool) : Timers :=
  { t with
    delay := (raw.getD place 0).toNat
    sound := raw.getD (place + 1) 0
    told := told }

theorem restore_numbers (t : Timers) (h : place + 1 < raw.length) (near : place + 1 ≤ farthest) :
    ∃ told, t.restore (numbers raw) place = (t.withBytesAt raw place told, .ok 2) := by
  have restored := restore_eq_ok_iff.mpr ⟨_, _, numberAt_numbers (by omega) (by omega),
    numberAt_numbers h near, Eq.refl ({ t with delay := _ }.setSound _), rfl⟩
  rw [restored, setSound, byteOf_toNat]
  unfold tell
  split
  · exact ⟨_, rfl⟩
  · exact ⟨_, rfl⟩

theorem saved_withBytesAt (t : Timers) (told : List Bool) (h : place + 1 < raw.length) :
    (t.withBytesAt raw place told).saved = slice raw place 2 := by
  rw [slice_two h, saved, withBytesAt, byteOf_toNat]

end Timers

/-! ## Memory -/

/-- Placed bytes stand where they were placed, and everything else stays. -/
theorem Cells.get_place (bytes : List UInt8) : ∀ (cells : Cells) (start : Nat) (i : Fin 4096),
    (cells.place start bytes).get i =
      if start ≤ i ∧ i < start + bytes.length then bytes.getD (i - start) 0 else cells.get i := by
  induction bytes with
  | nil =>
      intro cells start i
      rw [place, if_neg]
      simp only [List.length_nil]
      omega
  | cons b rest ih =>
      intro cells start i
      rw [place]
      by_cases room : start < 4096
      · rw [dif_pos room, ih, Table.get_put]
        -- the rest is placed behind the first byte and does not reach it
        by_cases here : start = i
        · rw [if_neg (by omega), if_pos (Fin.ext here),
            if_pos (by simp only [List.length_cons]; omega), here, Nat.sub_self]
          rfl
        · by_cases later : start + 1 ≤ i ∧ i < start + 1 + rest.length
          · rw [if_pos later, if_pos (by simp only [List.length_cons]; omega),
              show i.val - start = i.val - (start + 1) + 1 by omega]
            rfl
          · rw [if_neg later, if_neg (fun e => here (congrArg Fin.val e)),
              if_neg (by simp only [List.length_cons]; omega)]
      · rw [dif_neg room, if_neg]
        omega

/-- Bytes that fill the memory are what it then holds. -/
theorem Cells.toList_place (cells : Cells) {bytes : List UInt8} (h : bytes.length = 4096) :
    (cells.place 0 bytes).toList = bytes := by
  refine List.ext_getElem (by rw [Vector.length_toList, h]) fun i hi hi' => ?_
  have there := get_place bytes cells 0 ⟨i, by omega⟩
  rw [if_pos ⟨Nat.zero_le _, by omega⟩, Nat.sub_zero, List.getD_eq_getElem _ _ hi'] at there
  rw [Vector.getElem_toList]
  exact there

namespace Memory

variable {m : Memory} {raw : List UInt8} {place : Nat}

/-- Restoring changes the contents only. -/
theorem restore_frame {data : List Int} {offset : Int} {r : Memory × Int}
    (h : m.restore data offset = .ok r) : ∃ cells, r.1 = { m with cells := cells } := by
  unfold restore at h
  dsimp only at h
  split at h
  · cases h
  · cases hb : bytes (block data offset 4096) with
    | error e =>
        rw [hb] at h
        cases h
    | ok file =>
        rw [hb] at h
        cases h
        exact ⟨_, rfl⟩

/-- The memory whose contents stand at a place. -/
def withBytesAt (m : Memory) (raw : List UInt8) (place : Nat) : Memory :=
  { m with cells := m.cells.place 0 (slice raw place 4096) }

theorem restore_numbers (m : Memory) (h : place + 4096 ≤ raw.length) :
    m.restore (numbers raw) place = .ok (m.withBytesAt raw place, 4096) := by
  have whole : (numbers (slice raw place 4096)).length = 4096 := by
    rw [length_numbers, length_slice h]
  simp only [restore, block_numbers, whole, bytes_numbers]
  rfl

theorem le_length_of_restore {r : Memory × Int} (h : m.restore (numbers raw) place = .ok r) :
    place + 4096 ≤ raw.length := by
  by_contra short
  have cut : (numbers (slice raw place 4096)).length ≠ 4096 := by
    rw [length_numbers, slice, List.length_take, List.length_drop]
    omega
  rw [restore, block_numbers] at h
  simp only [ne_eq, cut, not_false_eq_true, if_true] at h
  cases h

theorem saved_withBytesAt (m : Memory) (h : place + 4096 ≤ raw.length) :
    (m.withBytesAt raw place).saved = slice raw place 4096 :=
  Cells.toList_place _ (length_slice h)

end Memory

/-! ## Screen -/

/-- Bytes for pixels as they are saved: one for a lit pixel, zero for a dark one. -/
def tidy (pixels : List UInt8) : List UInt8 := pixels.map fun b => if b = 0 then 0 else 1

namespace Screen

variable {width height place : Nat} {raw : List UInt8}

/-- The screen with the given pixels, row after row, as it is restored. -/
def showing (width height : Nat) (pixels : List Bool) : Screen width height :=
  ⟨rowsOf width height pixels.toArray, true⟩

theorem toRows_showing (l : List Bool) :
    (showing width height l).toRows =
      List.ofFn fun y : Fin height => List.ofFn fun x : Fin width =>
        l.getD (y * width + x) false := by
  refine List.ext_getElem ?_ fun y hy hy' => ?_
  · rw [length_toRows, List.length_ofFn]
  · refine List.ext_getElem ?_ fun x hx hx' => ?_
    · rw [length_of_mem_toRows _ (List.getElem_mem hy), List.getElem_ofFn, List.length_ofFn]
    · simp [showing, toRows, rowsOf]

/-- A screen that was made from pixels has these pixels. -/
theorem pixels_showing {l : List Bool} (h : l.length = height * width) :
    (showing width height l).pixels = l := by
  have whole : List.ofFn (fun k : Fin (height * width) => l.getD k false) = l := by
    refine List.ext_getElem (by rw [List.length_ofFn, h]) fun k hk hk' => ?_
    rw [List.getElem_ofFn, List.getD_eq_getElem _ _ hk']
  rw [pixels, toRows_showing, ← List.ofFn_mul (fun k => l.getD k false), whole]

theorem restore_eq_ok_iff {s : Screen width height} {data : List Int} {offset : Int}
    {r : Screen width height × Int} :
    s.restore data offset = .ok r ↔
      numberAt data offset = .ok (width : Int) ∧ numberAt data (offset + 1) = .ok (height : Int) ∧
        (block data (offset + 2) (width * height)).length = width * height ∧
        r = (showing width height
          ((block data (offset + 2) (width * height)).map fun n => decide (n ≠ 0)),
          (2 + width * height : Int)) := by
  unfold restore
  cases numberAt data offset with
  | error e => exact ⟨fun h => (nomatch h), fun ⟨h, _⟩ => (nomatch h)⟩
  | ok savedWidth =>
      cases numberAt data (offset + 1) with
      | error e => exact ⟨fun h => (nomatch h), fun ⟨_, h, _⟩ => (nomatch h)⟩
      | ok savedHeight =>
          simp only [bind, Except.bind]
          by_cases size : savedWidth = width ∧ savedHeight = height
          · obtain ⟨rfl, rfl⟩ := size
            rw [if_neg (by simp)]
            by_cases whole : (block data (offset + 2) (width * height)).length = width * height
            · rw [if_neg (by simp [whole])]
              constructor
              · intro h
                cases h
                exact ⟨rfl, rfl, whole, rfl⟩
              · rintro ⟨-, -, -, rfl⟩
                rfl
            · rw [if_pos whole]
              exact ⟨fun h => (nomatch h), fun ⟨_, _, h, _⟩ => absurd h whole⟩
          · rw [if_pos (by omega)]
            refine ⟨fun h => (nomatch h), fun ⟨hw, hh, _⟩ => absurd ⟨?_, ?_⟩ size⟩
            · exact Except.ok.inj hw
            · exact Except.ok.inj hh

/-- Which pixels are lit, told by their bytes. -/
def litOf (pixels : List UInt8) : List Bool := pixels.map fun b => decide (b ≠ 0)

theorem litOf_eq (pixels : List UInt8) :
    (numbers pixels).map (fun n => decide (n ≠ 0)) = litOf pixels := by
  rw [numbers, litOf, List.map_map]
  refine List.map_congr_left fun b _ => decide_eq_decide.mpr (not_congr ?_)
  have zero : b.toNat = 0 ↔ b = 0 := UInt8.toNat_inj (b := 0)
  rw [← zero]
  exact Int.natCast_eq_zero

/-- The size of the screen stands at a place, and bytes for all of its pixels behind it. -/
structure FitsAt (width height : Nat) (raw : List UInt8) (place : Nat) : Prop where
  columns : (raw.getD place 0).toNat = width
  lines : (raw.getD (place + 1) 0).toNat = height
  room : place + 2 + width * height ≤ raw.length

/-- The screen whose pixels stand behind a place for its size. -/
def ofBytesAt (width height : Nat) (raw : List UInt8) (place : Nat) : Screen width height :=
  showing width height (litOf (slice raw (place + 2) (width * height)))

theorem restore_numbers (s : Screen width height) (h : FitsAt width height raw place)
    (near : place + 1 ≤ farthest) :
    s.restore (numbers raw) place =
      .ok (ofBytesAt width height raw place, (2 + width * height : Int)) := by
  have room := h.room
  have inside : place + 1 < raw.length := by omega
  have image : block (numbers raw) ((place : Int) + 2) (width * height) =
      numbers (slice raw (place + 2) (width * height)) := block_numbers raw (place + 2) _
  refine restore_eq_ok_iff.mpr ⟨?_, ?_, ?_, ?_⟩
  · rw [← h.columns]
    exact numberAt_numbers (by omega) (by omega)
  · rw [← h.lines]
    exact numberAt_numbers inside near
  · rw [image, length_numbers, length_slice room]
  · rw [image, litOf_eq, ofBytesAt]

/-- The size is found first, and only then that bytes are missing behind it. -/
theorem restore_of_short (s : Screen width height) (columns : (raw.getD place 0).toNat = width)
    (lines : (raw.getD (place + 1) 0).toNat = height) (inside : place + 1 < raw.length)
    (near : place + 1 ≤ farthest) (short : raw.length < place + 2 + width * height) :
    s.restore (numbers raw) place = .error .truncatedScreen := by
  have savedWidth : numberAt (numbers raw) place = .ok (width : Int) := by
    rw [← columns]
    exact numberAt_numbers (by omega) (by omega)
  have savedHeight : numberAt (numbers raw) ((place : Int) + 1) = .ok (height : Int) := by
    rw [← lines]
    exact numberAt_numbers inside near
  have image : block (numbers raw) ((place : Int) + 2) (width * height) =
      numbers (slice raw (place + 2) (width * height)) := block_numbers raw (place + 2) _
  have missing : (numbers (slice raw (place + 2) (width * height))).length ≠ width * height := by
    rw [length_numbers, slice, List.length_take, List.length_drop]
    omega
  rw [restore, savedWidth, savedHeight]
  simp only [bind, Except.bind]
  rw [if_neg (by simp), image, if_pos missing]

theorem fitsAt_of_restore {s : Screen width height} {r : Screen width height × Int}
    (h : s.restore (numbers raw) place = .ok r) : FitsAt width height raw place := by
  obtain ⟨hw, hh, whole, -⟩ := restore_eq_ok_iff.mp h
  obtain ⟨_, hw⟩ := lt_length_of_numberAt hw
  obtain ⟨inside, hh⟩ : place + 1 < raw.length ∧ _ := lt_length_of_numberAt hh
  refine ⟨by omega, by omega, ?_⟩
  rw [show (place : Int) + 2 = (place + 2 : Nat) from rfl, block_numbers, length_numbers,
    slice, List.length_take, List.length_drop] at whole
  omega

/-- Pixels as they are saved. -/
def bytesOf (pixels : List Bool) : List UInt8 := pixels.map fun p => if p then 1 else 0

theorem saved_eq (s : Screen width height) :
    s.saved.map byteOf =
      byteOf (width : Int) :: byteOf (height : Int) :: bytesOf s.pixels := by
  rw [saved, List.map_cons, List.map_cons, List.map_map]
  refine congrArg _ (congrArg _ (List.map_congr_left fun p _ => ?_))
  cases p with
  | false => rfl
  | true => rfl

theorem bytesOf_litOf (pixels : List UInt8) : bytesOf (litOf pixels) = tidy pixels := by
  rw [bytesOf, litOf, tidy, List.map_map]
  refine List.map_congr_left fun b _ => ?_
  by_cases dark : b = 0
  · simp [dark]
  · simp [dark]

theorem tidy_bytesOf (pixels : List Bool) : tidy (bytesOf pixels) = bytesOf pixels := by
  rw [tidy, bytesOf, List.map_map]
  refine List.map_congr_left fun p _ => ?_
  cases p with
  | false => rfl
  | true => rfl

theorem bytesOf_inj {l l' : List Bool} (h : bytesOf l = bytesOf l') : l = l' := by
  refine (List.map_inj_right fun p q => ?_).mp h
  cases p <;> cases q <;> decide

theorem saved_ofBytesAt (h : FitsAt width height raw place) :
    (ofBytesAt width height raw place).saved.map byteOf =
      slice raw place 2 ++ tidy (slice raw (place + 2) (width * height)) := by
  have room := h.room
  have length : (litOf (slice raw (place + 2) (width * height))).length = height * width := by
    rw [litOf, List.length_map, length_slice room, Nat.mul_comm]
  rw [saved_eq, ofBytesAt, pixels_showing length, bytesOf_litOf, slice_two (by omega), ← h.columns,
    ← h.lines, byteOf_toNat, byteOf_toNat]
  rfl

theorem lengths_toRows (s : Screen width height) :
    s.toRows.map List.length = List.replicate height width := by
  refine List.eq_replicate_iff.mpr ⟨by rw [List.length_map, length_toRows], fun n hn => ?_⟩
  obtain ⟨row, hr, rfl⟩ := List.mem_map.mp hn
  exact length_of_mem_toRows s hr

theorem length_pixels (s : Screen width height) : s.pixels.length = height * width := by
  rw [pixels, List.length_flatten, lengths_toRows, List.sum_replicate_nat]

/-- The pixels one after the other tell the rows. -/
theorem rows_of_pixels {s s' : Screen width height} (h : s.pixels = s'.pixels) :
    s.rows = s'.rows := by
  have rows : s.toRows = s'.toRows :=
    List.eq_iff_flatten_eq.mpr ⟨h, by rw [lengths_toRows, lengths_toRows]⟩
  have lists : s.rows.toList = s'.rows.toList :=
    (List.map_inj_right fun _ _ => Vector.toList_inj.mp).mp rows
  exact Vector.toList_inj.mp lists

end Screen

end Chip8
