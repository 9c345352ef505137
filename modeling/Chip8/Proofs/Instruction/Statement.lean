import Chip8.Instruction.Assembly
import Chip8.Machine.Basic
import Chip8.Proofs.Instruction.Encoding
import Chip8.Proofs.Text.Hex

/-!
# Statements of the assembler

The text of an instruction is a mnemonic and a list of tokens: the operands that its layout has
room for, between others that are the same for all instructions of the operation. Mnemonics are
shared, eleven operations are written `LD`, so an operation is only told by the mnemonic together
with the form of its tokens. Each token is read back from its text, the form gives the operation, and
the operation says where its operands stand.
-/

namespace Chip8

open Chip8.Text

/-! ## Tokens -/

/-- The name of one of the machine's own places. -/
inductive Symbol
  | index
  | delay
  | sound
  | key
  | glyph
  | digits
  | memory
  deriving DecidableEq, Repr

def Symbol.text : Symbol → String
  | index => "I"
  | delay => "DT"
  | sound => "ST"
  | key => "K"
  | glyph => "F"
  | digits => "B"
  | memory => "[I]"

/-- One operand of an assembly text. -/
inductive Token
  | symbol (s : Symbol)
  | register (r : Fin 16)
  | count (n : Fin 16)
  | byte (b : UInt8)
  | address (a : Fin 4096)
  | word (w : UInt16)
  deriving DecidableEq, Repr

/-- What is left of a token when its value is forgotten. -/
inductive Form
  | symbol (s : Symbol)
  | register
  | count
  | byte
  | address
  | word
  deriving DecidableEq, Repr

namespace Token

def text : Token → String
  | symbol s => s.text
  | register r => registerText r
  | count n => toString n.val
  | byte b => "#" ++ hexByte b
  | address a => "#" ++ hex 3 a.val
  | word w => "#" ++ hexWord w

def value : Token → Int
  | symbol _ => 0
  | register r => r
  | count n => n
  | byte b => b.toNat
  | address a => a
  | word w => w.toNat

def form : Token → Form
  | symbol s => .symbol s
  | register _ => .register
  | count _ => .count
  | byte _ => .byte
  | address _ => .address
  | word _ => .word

/-- The tokens that are not numbers behind `#`. -/
def short : List Token :=
  [.index, .delay, .sound, .key, .glyph, .digits, .memory].map symbol ++
    (List.finRange 16).map register ++ (List.finRange 16).map count

/-- The token of a number with so many digits. -/
def ofNumber? (digits n : Nat) : Option Token :=
  match digits with
  | 2 => some (byte (UInt8.ofNat n))
  | 3 => some (address ⟨n % 4096, Nat.mod_lt n (by decide)⟩)
  | 4 => some (word (UInt16.ofNat n))
  | _ => none

/-- The token with the given text. -/
def ofChars? : List Char → Option Token
  | '#' :: ds => (hexValue? ds).bind (ofNumber? ds.length)
  | cs => short.find? fun t => t.text.toList == cs

theorem ofChars?_number {width n : Nat} (positive : 0 < width) (h : n < 16 ^ width) :
    ofChars? ('#' :: padZeros width (hexDigits n)) = ofNumber? width n := by
  rw [ofChars?, hexValue?_padZeros, length_padZeros_hexDigits positive h]
  rfl

theorem text_byte (b : UInt8) :
    (byte b).text.toList = '#' :: padZeros 2 (hexDigits b.toNat) := by
  simp [text, toList_hexByte]

theorem text_address (a : Fin 4096) :
    (address a).text.toList = '#' :: padZeros 3 (hexDigits a.val) := by
  simp [text, hex]

theorem text_word (w : UInt16) :
    (word w).text.toList = '#' :: padZeros 4 (hexDigits w.toNat) := by
  simp [text, hexWord, hex]

theorem ofChars?_text (t : Token) : ofChars? t.text.toList = some t := by
  cases t with
  | symbol s => cases s <;> decide
  | register r => revert r; decide
  | count n => revert n; decide
  | byte b =>
      rw [text_byte, ofChars?_number (by decide) b.toNat_lt]
      simp [ofNumber?]
  | address a =>
      rw [text_address, ofChars?_number (by decide) a.isLt]
      simp [ofNumber?, Nat.mod_eq_of_lt a.isLt]
  | word w =>
      rw [text_word, ofChars?_number (by decide) w.toNat_lt]
      simp [ofNumber?]

end Token

/-- A text that is read as one word of a line. -/
structure IsWord (cs : List Char) : Prop where
  written : cs ≠ []
  blank : ' ' ∉ cs
  comma : ',' ∉ cs

instance (cs : List Char) : Decidable (IsWord cs) :=
  decidable_of_iff (cs ≠ [] ∧ ' ' ∉ cs ∧ ',' ∉ cs)
    ⟨fun ⟨written, blank, comma⟩ => ⟨written, blank, comma⟩,
      fun ⟨written, blank, comma⟩ => ⟨written, blank, comma⟩⟩

theorem isWord_number (width n : Nat) : IsWord ('#' :: padZeros width (hexDigits n)) := by
  have digits : ∀ c ∈ padZeros width (hexDigits n), c ∈ hexAlphabet := by
    intro c mem
    simp only [padZeros, List.mem_append, List.mem_replicate] at mem
    obtain ⟨-, rfl⟩ | mem := mem
    · decide
    · exact hexDigits_mem n c mem
  refine ⟨List.cons_ne_nil _ _, ?_, ?_⟩
  · intro mem
    exact absurd (digits ' ' (by simpa using mem)) (by decide)
  · intro mem
    exact absurd (digits ',' (by simpa using mem)) (by decide)

theorem Token.isWord_text (t : Token) : IsWord t.text.toList := by
  cases t with
  | symbol s => cases s <;> decide
  | register r => revert r; decide
  | count n => revert n; decide
  | byte b => rw [text_byte]; exact isWord_number 2 _
  | address a => rw [text_address]; exact isWord_number 3 _
  | word w => rw [text_word]; exact isWord_number 4 _

/-! ## Operations -/

namespace Op

def mnemonic : Op → String
  | sys => "SYS"
  | cls => "CLS"
  | ret => "RET"
  | jp | jpOffset => "JP"
  | call => "CALL"
  | skipEqByte | skipEqReg => "SE"
  | skipNeByte | skipNeReg => "SNE"
  | ldByte | ldReg | ldIndex | getDelay | waitKey | setDelay | setSound | glyph | digits | store
  | load => "LD"
  | addByte | addReg | addIndex => "ADD"
  | or => "OR"
  | and => "AND"
  | xor => "XOR"
  | sub => "SUB"
  | shr => "SHR"
  | subn => "SUBN"
  | shl => "SHL"
  | rnd => "RND"
  | draw => "DRW"
  | skipKey => "SKP"
  | skipNoKey => "SKNP"
  | unknown => "DW"

/-- The tokens in front of the operands, the same in every text of the operation. -/
def before : Op → List Token
  | ldIndex | addIndex => [.symbol .index]
  | jpOffset => [.register Machine.first]
  | setDelay => [.symbol .delay]
  | setSound => [.symbol .sound]
  | glyph => [.symbol .glyph]
  | digits => [.symbol .digits]
  | store => [.symbol .memory]
  | _ => []

/-- The tokens behind the operands. -/
def behind : Op → List Token
  | getDelay => [.symbol .delay]
  | waitKey => [.symbol .key]
  | load => [.symbol .memory]
  | _ => []

end Op

/-- The operand of an instruction as a token. -/
def Instruction.token (i : Instruction) : Field → Token
  | .x => .register i.x
  | .y => .register i.y
  | .n => .count ⟨i.n, Nat.mod_lt _ (by decide)⟩
  | .nn => .byte i.nn
  | .nnn => .address ⟨i.nnn.toNat % 4096, Nat.mod_lt _ (by decide)⟩

/-- All tokens of an instruction with the given operation. -/
def Op.tokens (op : Op) (i : Instruction) : List Token :=
  op.before ++ op.layout.fields.map i.token ++ op.behind

/-- The form of all texts of an operation. -/
def Op.form (op : Op) : List Form := (op.tokens (decode 0)).map Token.form

/-- The operands with the given values. -/
def Operands.of (value : Field → Int) : Operands :=
  ⟨0, value .x, value .y, value .n, value .nn, value .nnn⟩

/-- The operands that stand in a text of the operation. -/
def Op.gather (op : Op) (tokens : List Token) : Operands :=
  .of fun k => ((tokens.drop op.before.length)[op.layout.fields.idxOf k]?.map Token.value).getD 0

/-- A mnemonic with its tokens. -/
structure Statement where
  mnemonic : String
  tokens : List Token
  deriving DecidableEq, Repr

/-- What an instruction says; a word that is not one stands for itself. -/
def Instruction.statement (i : Instruction) : Statement :=
  ⟨i.op.mnemonic, if i.op = .unknown then [.word i.word] else i.op.tokens i⟩

namespace Statement

def assembly (s : Statement) : Assembly :=
  ⟨s.mnemonic, ", ".intercalate (s.tokens.map Token.text)⟩

/-- The operation that has texts of this form. -/
def op? (s : Statement) : Option Op :=
  Op.all.find? fun op => op.mnemonic = s.mnemonic ∧ op.form = s.tokens.map Token.form

def word? (s : Statement) : Option UInt16 := do
  let op ← s.op?
  (encode op (op.gather s.tokens)).toOption

/-- The bytes that a statement puts into the program. -/
def bytes? (s : Statement) : Option (List UInt8) :=
  if s.mnemonic = "DB" then
    match s.tokens with
    | [.byte b] => some [b]
    | _ => none
  else if s.mnemonic = "DW" then
    match s.tokens with
    | [.word w] => some [highByte w, lowByte w]
    | _ => none
  else s.word?.map fun w => [highByte w, lowByte w]

end Statement

theorem text_address_token (i : Instruction) :
    (i.token .nnn).text = "#" ++ hex 3 i.nnn.toNat := by
  have small : i.nnn.toNat % 4096 = i.nnn.toNat := by
    simp [Instruction.nnn]
    omega
  simp [Instruction.token, Token.text, small]

theorem append_comma (vx name : String) : vx ++ (", " ++ name) = ", ".intercalate [vx, name] :=
  String.append_assoc.symm

theorem assembly_statement (i : Instruction) : i.assembly = i.statement.assembly := by
  obtain ⟨op, w⟩ := i
  cases op
  case sys | jp | call | ldIndex | jpOffset =>
    simp only [Instruction.statement, Statement.assembly, Op.tokens, Op.before, Op.behind,
      Op.layout, Layout.fields, List.map_append, List.map_cons, List.map_nil, text_address_token,
      reduceCtorEq, if_false]
    rfl
  -- a place behind the register is written together with its comma
  case getDelay => exact congrArg (Assembly.mk "LD") (append_comma _ "DT")
  case waitKey => exact congrArg (Assembly.mk "LD") (append_comma _ "K")
  case load => exact congrArg (Assembly.mk "LD") (append_comma _ "[I]")
  all_goals rfl

theorem form_tokens (op : Op) (i : Instruction) : (op.tokens i).map Token.form = op.form := by
  have token : Token.form ∘ i.token = Token.form ∘ (decode 0).token := by
    funext k
    cases k <;> rfl
  simp only [Op.form, Op.tokens, List.map_append, List.map_map, token]

theorem find_form {op : Op} (known : op ≠ .unknown) :
    (Op.all.find? fun o => o.mnemonic = op.mnemonic ∧ o.form = op.form) = some op := by
  cases op with
  | unknown => contradiction
  | _ => decide

theorem value_token (i : Instruction) (k : Field) : (i.token k).value = i.operands.get k := by
  cases k with
  | nnn =>
      simp [Instruction.token, Token.value, Operands.get, Instruction.operands, Instruction.nnn]
      omega
  | _ => rfl

theorem get_gather {op : Op} (i : Instruction) {k : Field} (h : k ∈ op.layout.fields) :
    (op.gather (op.tokens i)).get k = i.operands.get k := by
  have place : (op.gather (op.tokens i)).get k =
      ((((op.tokens i).drop op.before.length)[op.layout.fields.idxOf k]?).map
        Token.value).getD 0 := by
    cases k <;> rfl
  rw [place, Op.tokens, List.append_assoc, List.drop_left,
    List.getElem?_append_left (by simpa using List.idxOf_lt_length_iff.mpr h), List.getElem?_map,
    List.getElem?_idxOf h]
  exact value_token i k

theorem statement_of_known {i : Instruction} (known : i.op ≠ .unknown) :
    i.statement = ⟨i.op.mnemonic, i.op.tokens i⟩ := by
  rw [Instruction.statement, if_neg known]

theorem op?_statement {i : Instruction} (known : i.op ≠ .unknown) :
    i.statement.op? = some i.op := by
  rw [statement_of_known known, Statement.op?]
  simp only [form_tokens]
  exact find_form known

theorem encode_gather {w : UInt16} (known : opOf w ≠ .unknown) :
    encode (opOf w) ((opOf w).gather ((opOf w).tokens (decode w))) = .ok w := by
  have masked : ∀ k ∈ (opOf w).layout.fields,
      ((opOf w).gather ((opOf w).tokens (decode w))).masked k = (decode w).operands.masked k := by
    intro k mem
    rw [Operands.masked, get_gather _ mem, Operands.masked]
  rw [encode, if_neg known, Layout.bits_congr masked, (Op.matches_opOf known).word]

theorem word?_statement {w : UInt16} (known : opOf w ≠ .unknown) :
    (decode w).statement.word? = some w := by
  rw [Statement.word?, op?_statement known, statement_of_known known]
  show (encode (opOf w) ((opOf w).gather ((opOf w).tokens (decode w)))).toOption = some w
  rw [encode_gather known]
  rfl

theorem isWord_mnemonic (op : Op) : IsWord op.mnemonic.toList := by
  cases op <;> decide

theorem mnemonic_not_data {op : Op} (known : op ≠ .unknown) :
    op.mnemonic ≠ "DB" ∧ op.mnemonic ≠ "DW" := by
  cases op with
  | unknown => contradiction
  | _ => decide

theorem bytes?_statement (w : UInt16) :
    (decode w).statement.bytes? = some [highByte w, lowByte w] := by
  by_cases known : opOf w = .unknown
  · simp [Instruction.statement, known, Statement.bytes?, Op.mnemonic]
  · have ⟨notByte, notWord⟩ := mnemonic_not_data known
    have mnemonic : (decode w).statement.mnemonic = (opOf w).mnemonic := rfl
    rw [Statement.bytes?, mnemonic, if_neg notByte, if_neg notWord, word?_statement known]
    rfl

end Chip8
