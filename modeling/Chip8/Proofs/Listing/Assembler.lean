import Chip8.Listing
import Chip8.Proofs.Instruction.Statement

/-!
# Assembling a listing

The texts of a listing, without addresses and bytes, are enough to put the program together again:
a line falls into its words at the blanks, commas do not count, the first word is the mnemonic and
the others are tokens. No two blocks of bytes have the same texts.
-/

namespace Chip8

/-! ## Words of a line -/

/-- The words of a line; commas between them do not count. -/
def lineWords (line : String) : List (List Char) :=
  (line.toList.filter fun c => c != ',').splitOn ' '

theorem filter_no_comma {cs : List Char} (h : ',' ∉ cs) : (cs.filter fun c => c != ',') = cs := by
  rw [List.filter_eq_self]
  intro c mem
  simp only [bne_iff_ne]
  rintro rfl
  exact h mem

theorem filter_intercalate {ls : List (List Char)} (h : ∀ l ∈ ls, ',' ∉ l) :
    (([',', ' '].intercalate ls).filter fun c => c != ',') = [' '].intercalate ls := by
  induction ls with
  | nil => rfl
  | cons l ls ih =>
      have head := filter_no_comma (h l List.mem_cons_self)
      have tail := ih fun m mem => h m (List.mem_cons_of_mem l mem)
      cases ls with
      | nil => simpa using head
      | cons m ls =>
          simp only [List.intercalate_cons_cons, List.filter_append, head, tail]
          rfl

namespace Statement

/-- The words that a statement is written in. -/
def words (s : Statement) : List (List Char) :=
  s.mnemonic.toList :: s.tokens.map fun t => t.text.toList

/-- The statement written in the given words. -/
def ofWords? : List (List Char) → Option Statement
  | [] => none
  | m :: ws => (ws.mapM Token.ofChars?).map (⟨String.ofList m, ·⟩)

theorem ofWords?_words (s : Statement) : ofWords? s.words = some s := by
  have tokens : (s.tokens.map fun t => t.text.toList).mapM Token.ofChars? = some s.tokens := by
    induction s.tokens with
    | nil => rfl
    | cons t ts ih => simp [Token.ofChars?_text, ih]
  simp [words, ofWords?, tokens]

theorem toList_operands (ts : List Token) :
    (", ".intercalate (ts.map Token.text)).toList =
      [',', ' '].intercalate (ts.map fun t => t.text.toList) := by
  rw [String.toList_intercalate, List.map_map]
  rfl

theorem operands_not_empty (t : Token) (ts : List Token) :
    (", ".intercalate ((t :: ts).map Token.text)).isEmpty = false := by
  have first := t.isWord_text.written
  rw [Bool.eq_false_iff]
  intro empty
  have none := congrArg String.toList (String.isEmpty_iff.mp empty)
  rw [toList_operands] at none
  cases ts <;> simp [first] at none

theorem filter_text (s : Statement) (m : ',' ∉ s.mnemonic.toList) :
    (s.assembly.text.toList.filter fun c => c != ',') = [' '].intercalate s.words := by
  obtain ⟨mnemonic, tokens⟩ := s
  cases tokens with
  | nil => exact (filter_no_comma m).trans List.intercalate_singleton.symm
  | cons t ts =>
      have single : ∀ cs ∈ (t :: ts).map fun t => t.text.toList, ',' ∉ cs := by
        intro cs mem
        obtain ⟨t, -, rfl⟩ := List.mem_map.mp mem
        exact t.isWord_text.comma
      have text : (assembly ⟨mnemonic, t :: ts⟩).text.toList = mnemonic.toList ++ [' '] ++
          [',', ' '].intercalate ((t :: ts).map fun t => t.text.toList) := by
        rw [← toList_operands, assembly, Assembly.text, operands_not_empty,
          if_neg Bool.false_ne_true]
        show (mnemonic ++ " " ++ ", ".intercalate ((t :: ts).map Token.text)).toList = _
        simp only [String.toList_append]
        rfl
      rw [text, List.filter_append, List.filter_append, filter_intercalate single,
        filter_no_comma m]
      exact List.intercalate_cons_cons.symm

theorem lineWords_text (s : Statement) (m : IsWord s.mnemonic.toList) :
    lineWords s.assembly.text = s.words := by
  have blanks : ∀ w ∈ s.words, ' ' ∉ w := by
    intro w mem
    simp only [words, List.mem_cons, List.mem_map] at mem
    obtain rfl | ⟨t, -, rfl⟩ := mem
    · exact m.blank
    · exact t.isWord_text.blank
  rw [lineWords, filter_text s m.comma, List.splitOn_intercalate ' ' blanks (List.cons_ne_nil _ _)]

end Statement

/-! ## Lines -/

/-- The bytes that a line puts into the program. -/
def assembleLine? (line : String) : Option (List UInt8) :=
  (Statement.ofWords? (lineWords line)).bind Statement.bytes?

/-- The program that is written in lines. -/
def assemble? (lines : List String) : Option (List UInt8) :=
  (lines.mapM assembleLine?).map List.flatten

theorem assembleLine?_text (s : Statement) (m : IsWord s.mnemonic.toList) :
    assembleLine? s.assembly.text = s.bytes? := by
  rw [assembleLine?, s.lineWords_text m, s.ofWords?_words]
  rfl

theorem assembleLine?_ofPair (address : Int) (high low : UInt8) :
    assembleLine? (ListingItem.ofPair address high low).text = some [high, low] := by
  rw [ListingItem.text, ListingItem.ofPair, assembly_statement,
    assembleLine?_text _ (isWord_mnemonic _), bytes?_statement, highByte_wordOfBytes,
    lowByte_wordOfBytes]

theorem assembleLine?_ofByte (address : Int) (b : UInt8) :
    assembleLine? (ListingItem.ofByte address b).text = some [b] := by
  have mnemonic : IsWord "DB".toList := by decide
  exact assembleLine?_text ⟨"DB", [.byte b]⟩ mnemonic

/-! ## Listings -/

theorem assembleLine?_item {address : Int} {data : List UInt8} {item : ListingItem}
    (h : item ∈ listing address data) : assembleLine? item.text = some item.bytes := by
  fun_induction listing address data with
  | case1 address high low rest ih =>
      obtain rfl | rest := List.mem_cons.mp h
      · exact assembleLine?_ofPair address high low
      · exact ih rest
  | case2 address b =>
      obtain rfl := List.mem_singleton.mp h
      exact assembleLine?_ofByte address b
  | case3 => contradiction

theorem assemble?_listing (address : Int) (data : List UInt8) :
    assemble? ((listing address data).map ListingItem.text) = some data := by
  have lines : ((listing address data).map ListingItem.text).mapM assembleLine? =
      some ((listing address data).map ListingItem.bytes) := by
    fun_induction listing address data with
    | case1 address high low rest ih =>
        rw [List.map_cons, List.mapM_cons, assembleLine?_ofPair, ih]
        rfl
    | case2 address b =>
        rw [List.map_singleton, List.mapM_cons, assembleLine?_ofByte]
        rfl
    | case3 => rfl
  rw [assemble?, lines, Option.map_some, ← List.flatMap_def, listing_bytes]

/-- The texts of a listing determine the program: an assembler gets it back from them, and items
with the same text stand for the same bytes, whatever listings they are from. -/
theorem texts_determine_program :
    (∀ address data, assemble? ((listing address data).map ListingItem.text) = some data) ∧
    (∀ a₁ a₂ d₁ d₂, (listing a₁ d₁).map ListingItem.text = (listing a₂ d₂).map ListingItem.text →
      d₁ = d₂) ∧
    ∀ a₁ a₂ d₁ d₂, ∀ i₁ ∈ listing a₁ d₁, ∀ i₂ ∈ listing a₂ d₂, i₁.text = i₂.text →
      i₁.bytes = i₂.bytes := by
  refine ⟨assemble?_listing, ?_, ?_⟩
  · intro a₁ a₂ d₁ d₂ same
    have back := assemble?_listing a₁ d₁
    rw [same, assemble?_listing] at back
    exact (Option.some.inj back).symm
  · intro a₁ a₂ d₁ d₂ i₁ mem₁ i₂ mem₂ same
    have back := assembleLine?_item mem₁
    rw [same, assembleLine?_item mem₂] at back
    exact (Option.some.inj back).symm

theorem assembledElsewhere_determined :
    assemble? ["DRW V1, V2, 5", "DB #07"] = some [0xD1, 0x25, 7] ∧
    (assemble? ["DRW V1, V2, 5", "DB #07"]).getD [] = [0xD1, 0x25, 7] ∧
    (ListingItem.ofByte 0x202 7).bytes = (ListingItem.ofByte 2 7).bytes := by
  have ⟨assembled, determined, items⟩ := texts_determine_program
  refine ⟨assembled 0x200 [0xD1, 0x25, 7], ?_, ?_⟩
  · exact determined 0x200 0 _ _ (by decide +kernel)
  · exact items 0x200 0 [0xD1, 0x25, 7] [0xD1, 0x25, 7] _ (by decide) _ (by decide)
      (by decide +kernel)

end Chip8
