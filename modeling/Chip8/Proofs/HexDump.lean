import Chip8.HexDump
import Chip8.Proofs.Text.Hex
import Mathlib.Data.List.Forall2

/-!
# Reading hex dumps back

The columns of a dumped line are found by their places: the address goes up to the first colon, and
48 characters behind it are for the bytes, three for each. What may stand in the last column is of
no importance for that. Lines that show rows of bytes in this way (`ShowsRow`) are read back as
these rows, so a dump is read back as its block (`dump_lossless`).
-/

namespace Chip8.HexDump

open Chip8.Text

/-! ## Columns -/

/-- The address of a line, between the dollar sign and the colon. -/
def addressColumn (line : String) : List Char := (line.toList.drop 3).takeWhile (· != ':')

/-- The bytes and marks of a line, behind the colon and a blank. -/
def behindAddress (line : String) : List Char := (line.toList.dropWhile (· != ':')).drop 2

def byteColumn (line : String) : List Char := (behindAddress line).take 48

def markColumn (line : String) : List Char := (behindAddress line).drop 49

/-- Two capital digits that stand for a byte. -/
structure ShowsByte (pair : List Char) (b : UInt8) : Prop where
  two : pair.length = 2
  capitals : ∀ c ∈ pair, c ∈ hexAlphabet
  value : hexValue? pair = some b.toNat

/-- The character of a byte, or a dot where it has none that is printable and plain. -/
def MarksByte (c : Char) (b : UInt8) : Prop :=
  if 0x20 ≤ b.toNat ∧ b.toNat ≤ 0x7E then c.toNat = b.toNat else c = '.'

/-- A line that shows an address and the bytes of a row: the address in four capital digits, or more
if it needs them, two digits and a blank for every byte in a column of constant width, and a mark
for every byte. -/
structure ShowsRow (line : String) (address : Nat) (row : List UInt8) : Prop where
  layout : line.toList = "; $".toList ++ addressColumn line ++ ": ".toList ++ byteColumn line ++
    " ".toList ++ markColumn line
  value : hexValue? (addressColumn line) = some address
  capitals : ∀ c ∈ addressColumn line, c ∈ hexAlphabet
  four : 4 ≤ (addressColumn line).length
  needed : ∀ width, 4 ≤ width → address < 16 ^ width → (addressColumn line).length ≤ width
  wide : (byteColumn line).length = 48
  bytes : ∃ pairs, List.Forall₂ ShowsByte pairs row ∧
    byteColumn line = pairs.flatMap (· ++ [' ']) ++ List.replicate (48 - 3 * row.length) ' '
  marks : List.Forall₂ MarksByte (markColumn line) row

/-- The bytes in a column, three places for each, up to the first place that is blank. -/
def readColumn? : List Char → Option (List UInt8)
  | high :: low :: _ :: rest =>
    if high = ' ' then some []
    else do return UInt8.ofNat (← hexValue? [high, low]) :: (← readColumn? rest)
  | _ => some []

/-- The lines of a dump but the first two and the last two. -/
def dataLines (dump : List String) : List String := (dump.drop 2).take (dump.length - 4)

/-- The block that a dump shows in its columns of bytes. -/
def readBack? (dump : List String) : Option (List UInt8) :=
  ((dataLines dump).mapM fun line => readColumn? (byteColumn line)).map List.flatten

/-! ## Lines -/

theorem toList_rowLine (address : Nat) (row : List UInt8) :
    (rowLine address row).toList = "; $".toList ++ padZeros 4 (hexDigits address) ++ ": ".toList ++
      (hexColumn row).toList ++ " ".toList ++ row.map byteChar := by
  show ("; $" ++ String.ofList (padZeros 4 (hexDigits address)) ++ ": " ++ hexColumn row ++ " " ++
    String.ofList (row.map byteChar)).toList = _
  simp only [String.toList_append, String.toList_ofList]

/-- The pairs of digits in a row. -/
def pairs (row : List UInt8) : List (List Char) := row.map fun b => (hexByte b).toList

theorem intercalate_concat {ps : List (List Char)} (full : ps ≠ []) :
    [' '].intercalate ps ++ [' '] = ps.flatMap (· ++ [' ']) := by
  induction ps with
  | nil => contradiction
  | cons p ps ih =>
      cases ps with
      | nil => simp
      | cons q ps =>
          rw [List.intercalate_cons_cons, List.flatMap_cons, ← ih (List.cons_ne_nil q ps)]
          simp

theorem length_flatMap_pairs (row : List UInt8) :
    ((pairs row).flatMap (· ++ [' '])).length = 3 * row.length := by
  induction row with
  | nil => rfl
  | cons b row ih =>
      have three : ((hexByte b).toList ++ [' ']).length = 3 := by simp [hexByte]
      have cut : pairs (b :: row) = (hexByte b).toList :: pairs row := rfl
      rw [cut, List.flatMap_cons, List.length_append, three, ih, List.length_cons]
      omega

/-- The blank behind the last pair is the first of those that fill the column. -/
theorem toList_hexColumn {row : List UInt8} (short : row.length ≤ 16) :
    (hexColumn row).toList =
      (pairs row).flatMap (· ++ [' ']) ++ List.replicate (48 - 3 * row.length) ' ' := by
  have joined : (" ".intercalate (row.map hexByte)).toList = [' '].intercalate (pairs row) := by
    rw [String.toList_intercalate, List.map_map]
    rfl
  rw [hexColumn, String.toList_append, String.toList_ofList, ← String.length_toList, joined]
  by_cases empty : row = []
  · rw [empty]
    rfl
  · have full : pairs row ≠ [] := by simpa [pairs] using empty
    have columns := intercalate_concat full
    have length := congrArg List.length columns
    rw [length_flatMap_pairs, List.length_append, List.length_singleton] at length
    have fill : 48 - ([' '].intercalate (pairs row)).length = 48 - 3 * row.length + 1 := by
      omega
    rw [fill, List.replicate_succ, ← columns, List.append_assoc]
    rfl

/-! ## Lines that show rows -/

theorem showsByte_hexByte (b : UInt8) : ShowsByte (hexByte b).toList b where
  two := by simp [hexByte]
  capitals := by
    have bound := b.toNat_lt
    simp only [hexByte, String.toList_ofList, List.forall_mem_cons]
    exact ⟨hexDigit_mem (by omega), hexDigit_mem (by omega), List.forall_mem_nil _⟩
  value := by rw [toList_hexByte, hexValue?_padZeros]

theorem marksByte_byteChar (b : UInt8) : MarksByte (byteChar b) b := by
  have bound := b.toNat_lt
  unfold MarksByte byteChar
  split
  · have valid : b.toNat.isValidChar := Or.inl (by omega)
    rw [if_pos (by omega), Char.ofNat, dif_pos valid]
    rfl
  · rw [if_neg (by omega)]

theorem bne_of_not_mem {x : Char} {cs : List Char} (h : x ∉ cs) : ∀ c ∈ cs, (c != x) = true := by
  intro c mem
  rw [bne_iff_ne]
  rintro rfl
  exact h mem

section Columns

variable {line : String} {digits column marks : List Char}
  (text : line.toList = "; $".toList ++ digits ++ ": ".toList ++ column ++ " ".toList ++ marks)
  (apart : ':' ∉ digits) (wide : column.length = 48)

include text apart

theorem addressColumn_eq : addressColumn line = digits := by
  have behind : line.toList.drop 3 = digits ++ ':' :: (' ' :: column ++ ' ' :: marks) := by
    simp [text]
  rw [addressColumn, behind, List.takeWhile_append_of_pos (bne_of_not_mem apart),
    List.takeWhile_cons_of_neg (by simp), List.append_nil]

theorem behindAddress_eq : behindAddress line = column ++ ' ' :: marks := by
  have before : ':' ∉ "; $".toList ++ digits := by simp [apart]
  have whole : line.toList = "; $".toList ++ digits ++ ':' :: ' ' :: (column ++ ' ' :: marks) := by
    simp [text]
  rw [behindAddress, whole, List.dropWhile_append_of_pos (bne_of_not_mem before),
    List.dropWhile_cons_of_neg (by simp)]
  rfl

include wide

theorem byteColumn_eq : byteColumn line = column := by
  rw [byteColumn, behindAddress_eq text apart, List.take_left' wide]

theorem markColumn_eq : markColumn line = marks := by
  have whole : behindAddress line = (column ++ [' ']) ++ marks := by
    rw [behindAddress_eq text apart]
    simp
  rw [markColumn, whole, List.drop_left' (by simp [wide])]

end Columns

theorem showsRow_rowLine (address : Nat) {row : List UInt8} (short : row.length ≤ 16) :
    ShowsRow (rowLine address row) address row := by
  have text := toList_rowLine address row
  have apart : ':' ∉ padZeros 4 (hexDigits address) := fun mem =>
    absurd (padZeros_mem mem) (by decide)
  have column := toList_hexColumn short
  have wide : (hexColumn row).toList.length = 48 := by
    rw [column, List.length_append, length_flatMap_pairs, List.length_replicate]
    omega
  have addresses := addressColumn_eq text apart
  have bytes := byteColumn_eq text apart wide
  have marks := markColumn_eq text apart wide
  exact {
    layout := by rw [addresses, bytes, marks, text]
    value := by rw [addresses, hexValue?_padZeros]
    capitals := by
      rw [addresses]
      exact fun c mem => padZeros_mem mem
    four := by
      rw [addresses, length_padZeros]
      exact Nat.le_max_left _ _
    needed := by
      intro width four fits
      rw [addresses, length_padZeros]
      exact Nat.max_le.mpr ⟨four, length_hexDigits_le (by omega) fits⟩
    wide := by rw [bytes, wide]
    bytes := by
      refine ⟨pairs row, ?_, by rw [bytes, column]⟩
      rw [pairs, List.forall₂_map_left_iff, List.forall₂_same]
      exact fun b _ => showsByte_hexByte b
    marks := by
      rw [marks, List.forall₂_map_left_iff, List.forall₂_same]
      exact fun b _ => marksByte_byteChar b }

/-! ## Reading -/

theorem ShowsByte.read {pair : List Char} {b : UInt8} (h : ShowsByte pair b) (rest : List Char) :
    readColumn? (pair ++ ' ' :: rest) = (readColumn? rest).map (b :: ·) := by
  obtain ⟨high, low, rfl⟩ := List.length_eq_two.mp h.two
  have digit : high ≠ ' ' := by
    rintro rfl
    exact absurd (h.capitals ' ' List.mem_cons_self) (by decide)
  show readColumn? (high :: low :: ' ' :: rest) = _
  rw [readColumn?, if_neg digit, h.value]
  cases readColumn? rest <;> simp

theorem readColumn?_blanks (k : Nat) : readColumn? (List.replicate k ' ') = some [] := by
  match k with
  | 0 | 1 | 2 => rfl
  | k + 3 =>
      rw [List.replicate_succ, List.replicate_succ, List.replicate_succ, readColumn?, if_pos rfl]

theorem readColumn?_of_pairs {ps : List (List Char)} {row : List UInt8}
    (h : List.Forall₂ ShowsByte ps row) (k : Nat) :
    readColumn? (ps.flatMap (· ++ [' ']) ++ List.replicate k ' ') = some row := by
  induction h with
  | nil => exact readColumn?_blanks k
  | cons shown _ ih =>
      rw [List.flatMap_cons, List.append_assoc, List.append_assoc, List.singleton_append,
        shown.read, ih]
      rfl

theorem ShowsRow.read {line : String} {address : Nat} {row : List UInt8}
    (h : ShowsRow line address row) : readColumn? (byteColumn line) = some row := by
  obtain ⟨pairs, shown, column⟩ := h.bytes
  rw [column, readColumn?_of_pairs shown]

/-! ## Rows -/

theorem length_rows (data : List UInt8) : (rows data).length = (data.length + 15) / 16 := by
  fun_induction rows data with
  | case1 => rfl
  | case2 b rest ih =>
      rw [List.length_cons, ih, List.length_drop, List.length_cons]
      omega

theorem getElem?_rows {data : List UInt8} {k : Nat} (less : k < (data.length + 15) / 16) :
    (rows data)[k]? = some ((data.drop (16 * k)).take 16) := by
  fun_induction rows data generalizing k with
  | case1 => simp at less
  | case2 b rest ih =>
      cases k with
      | zero => rfl
      | succ k =>
          have there : k < (((b :: rest).drop 16).length + 15) / 16 := by
            rw [List.length_drop]
            omega
          rw [List.getElem?_cons_succ, ih there, List.drop_drop, Nat.mul_succ, Nat.add_comm]

theorem length_row_le {data row : List UInt8} (mem : row ∈ rows data) : row.length ≤ 16 := by
  fun_induction rows data with
  | case1 => contradiction
  | case2 b rest ih =>
      obtain rfl | mem := List.mem_cons.mp mem
      · exact List.length_take_le _ _
      · exact ih mem

theorem length_rowLines (address : Int) (rs : List (List UInt8)) :
    (rowLines address rs).length = rs.length := by
  induction rs generalizing address with
  | nil => rfl
  | cons row rs ih => rw [rowLines, List.length_cons, ih, List.length_cons]

theorem getElem?_rowLines (address : Nat) (rs : List (List UInt8)) (k : Nat) :
    (rowLines address rs)[k]? = (rs[k]?).map (rowLine (address + 16 * k : Nat)) := by
  induction rs generalizing address k with
  | nil => rfl
  | cons row rs ih =>
      cases k with
      | zero => rfl
      | succ k =>
          have next : address + 16 * (k + 1) = address + 16 + 16 * k := by omega
          rw [next]
          exact ih (address + 16) k

/-- Reading the bytes of all lines gives the rows. -/
theorem readRows (address : Nat) {rs : List (List UInt8)} (short : ∀ row ∈ rs, row.length ≤ 16) :
    (rowLines address rs).mapM (fun line => readColumn? (byteColumn line)) = some rs := by
  induction rs generalizing address with
  | nil => rfl
  | cons row rs ih =>
      obtain ⟨first, others⟩ := List.forall_mem_cons.mp short
      have rest : (rowLines (address + 16) rs).mapM (fun line => readColumn? (byteColumn line)) =
          some rs := ih (address + 16) others
      rw [rowLines, List.mapM_cons, (showsRow_rowLine address first).read, rest]
      rfl

theorem dataLines_lines (data : List UInt8) (base : Int) :
    dataLines (lines data base) = rowLines base (rows data) := by
  have behind : (lines data base).drop 2 = rowLines base (rows data) ++ [rule, ""] := rfl
  have length : (lines data base).length - 4 = (rowLines base (rows data)).length := by
    simp [lines]
  rw [dataLines, behind, length, List.take_left]

theorem readBack?_lines (data : List UInt8) (base : Nat) :
    readBack? (lines data base) = some data := by
  rw [readBack?, dataLines_lines, readRows base fun _ mem => length_row_le mem, Option.map_some,
    rows_flatten]

theorem getElem?_dataLines (data : List UInt8) (base : Nat) {k : Nat}
    (less : k < (data.length + 15) / 16) :
    (dataLines (lines data base))[k]? =
      some (rowLine (base + 16 * k : Nat) ((data.drop (16 * k)).take 16)) := by
  rw [dataLines_lines, getElem?_rowLines, getElem?_rows less, Option.map_some]

theorem base_of_lines {data : List UInt8} {base base' : Nat}
    (same : lines data base = lines data base') : data = [] ∨ base = base' := by
  by_cases empty : data = []
  · exact Or.inl empty
  · have positive : 0 < data.length := List.length_pos_iff.mpr empty
    have first : 0 < (data.length + 15) / 16 := by omega
    have line := getElem?_dataLines data base first
    rw [same, getElem?_dataLines data base' first, Option.some_inj] at line
    have short : (data.take 16).length ≤ 16 := List.length_take_le _ _
    have value := (showsRow_rowLine base short).value
    have value' := (showsRow_rowLine base' short).value
    simp only [Nat.mul_zero, Nat.add_zero, List.drop_zero] at line
    rw [← line, value', Option.some_inj] at value
    exact Or.inr value.symm

/-- **Nothing is lost in a hex dump.** Between two lines in front and two behind, it has a line for
every sixteen bytes or part of them, and the line shows where they are and what they are. The block
is read back from the columns of bytes, so that dumps of different blocks are different, and so are
those of one block at different addresses, unless there is nothing to show. -/
theorem dump_lossless (data : List UInt8) (base : Nat) :
    lines data base = "; Hex dump:" :: rule :: dataLines (lines data base) ++ [rule, ""] ∧
    (dataLines (lines data base)).length = (data.length + 15) / 16 ∧
    (∀ k < (data.length + 15) / 16, ∃ line, (dataLines (lines data base))[k]? = some line ∧
      ShowsRow line (base + 16 * k) ((data.drop (16 * k)).take 16)) ∧
    readBack? (lines data base) = some data ∧
    ∀ (other : List UInt8) (otherBase : Nat), lines other otherBase = lines data base ↔
      other = data ∧ (data = [] ∨ otherBase = base) := by
  refine ⟨?_, ?_, ?_, readBack?_lines data base, ?_⟩
  · rw [dataLines_lines]
    rfl
  · rw [dataLines_lines, length_rowLines, length_rows]
  · intro k less
    exact ⟨_, getElem?_dataLines data base less, showsRow_rowLine _ (List.length_take_le _ _)⟩
  · intro other otherBase
    constructor
    · intro same
      have back := readBack?_lines other otherBase
      rw [same, readBack?_lines] at back
      cases back
      exact ⟨rfl, base_of_lines same⟩
    · rintro ⟨rfl, rfl | rfl⟩
      · rw [lines, lines, rows]
        rfl
      · rfl

/-- A full row of colons, then a blank and a byte that is not plain. -/
def colons : List UInt8 := List.replicate 16 0x3A ++ [0x20, 0xFF]

/-- Its second line, at an address of five digits, and two bytes that have the same mark. -/
theorem colons_dumped :
    (dataLines (lines colons 0xFFF8)).length = 2 ∧
    (∃ line, (dataLines (lines colons 0xFFF8))[1]? = some line ∧
      ShowsRow line 0x10008 [0x20, 0xFF]) ∧
    readBack? (lines colons 0xFFF8) = some colons ∧ lines [0x2E] 0x200 ≠ lines [0x00] 0x200 := by
  obtain ⟨-, count, shown, back, -⟩ := dump_lossless colons 0xFFF8
  refine ⟨count, shown 1 (by decide), back, fun same => ?_⟩
  obtain ⟨-, -, -, -, only⟩ := dump_lossless [0x00] 0x200
  exact absurd ((only [0x2E] 0x200).mp same).1 (by decide)

end Chip8.HexDump
