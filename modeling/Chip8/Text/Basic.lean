/-!
# Letters, numerals and addresses

Mode names, key names and register names are written in unaccented Latin letters and compared
without regard to case. Only the letters whose other case is such a letter matter for that: the
twenty-six of each case, and dotless `ı` and long `ſ`, whose capitals are `I` and `S`. All other
characters are left alone, since no name that is looked up holds them. Blanks around a name do not
count. A character is blank when it is a space of any width, a line or paragraph end, a tab, or one
of the four information separators.

Addresses, words and bytes are shown in base sixteen with capital digits, padded with zeros to a
least width. A minus sign takes one place of that width, so `-1` at width four is `-001`. Numbers
that need more places get them: nothing is ever cut off.

A person writes integers in base ten or sixteen: blanks around the number, one sign, digits, and
single underscores between digits. In base sixteen `0x` may stand before the digits, and an
underscore after it. A decimal digit of any script counts as the digit of its value. A decimal
number has at most 4300 digits; leading zeros count as digits.

An address is decimal, or base sixteen behind `0x` or `$`. The mark has to be the first thing in
the text: blanks may stand before a decimal address only.
-/

namespace Chip8

namespace Text

/-! ## Letter case -/

def capital (c : Char) : Char :=
  if c = 'ı' then 'I' else if c = 'ſ' then 'S' else c.toUpper

def capitals (s : String) : String := s.map capital

def smalls (s : String) : String := s.map Char.toLower

/-! ## Blanks -/

/-- Tab, line feed, vertical tab, form feed, carriage return and space. -/
def isPlainBlank (c : Char) : Bool :=
  (9 ≤ c.toNat && c.toNat ≤ 13) || c.toNat == 32

/-- The information separators, from file separator to unit separator. -/
def isSeparator (c : Char) : Bool :=
  28 ≤ c.toNat && c.toNat ≤ 31

/-- The blanks beyond the first 128 characters. -/
def isWideBlank (c : Char) : Bool :=
  [0x85, 0xA0, 0x1680, 0x2028, 0x2029, 0x202F, 0x205F, 0x3000].contains c.toNat ||
    (0x2000 ≤ c.toNat && c.toNat ≤ 0x200A)

def isBlank (c : Char) : Bool := isPlainBlank c || isSeparator c || isWideBlank c

/-- The characters between the first and the last that fail `p`. -/
def trimChars (p : Char → Bool) (cs : List Char) : List Char :=
  ((cs.dropWhile p).reverse.dropWhile p).reverse

def trim (s : String) : String := String.ofList (trimChars isBlank s.toList)

/-! ## Shown in base sixteen -/

/-- The digit of value `d`, for `d` below sixteen. -/
def hexDigit (d : Nat) : Char :=
  if d < 10 then Char.ofNat (d + 48) else Char.ofNat (d + 55)

/-- The digits of `n` in base sixteen, most significant first, with no zero in front. -/
def hexDigits (n : Nat) : List Char :=
  if n < 16 then [hexDigit n] else hexDigits (n / 16) ++ [hexDigit (n % 16)]
termination_by n
decreasing_by omega

def padZeros (width : Nat) (digits : List Char) : List Char :=
  List.replicate (width - digits.length) '0' ++ digits

/-- The text of an integer, at least `width` characters long. -/
def hex (width : Nat) : Int → String
  | .ofNat n => String.ofList (padZeros width (hexDigits n))
  | .negSucc n => String.ofList ('-' :: padZeros (width - 1) (hexDigits (n + 1)))

def hexByte (b : UInt8) : String :=
  String.ofList [hexDigit (b.toNat / 16), hexDigit (b.toNat % 16)]

def hexWord (w : UInt16) : String := hex 4 w.toNat

theorem length_padZeros (width : Nat) (digits : List Char) :
    (padZeros width digits).length = max width digits.length := by
  simp only [padZeros, List.length_append, List.length_replicate]
  omega

/-! ## Read in either base -/

/-- The zeros of the scripts that have ten decimal digits in a row, beyond the first 128
characters. -/
def digitZeros : List Nat :=
  [0x660, 0x6F0, 0x7C0, 0x966, 0x9E6, 0xA66, 0xAE6, 0xB66, 0xBE6, 0xC66, 0xCE6, 0xD66, 0xDE6,
   0xE50, 0xED0, 0xF20, 0x1040, 0x1090, 0x17E0, 0x1810, 0x1946, 0x19D0, 0x1A80, 0x1A90, 0x1B50,
   0x1BB0, 0x1C40, 0x1C50, 0xA620, 0xA8D0, 0xA900, 0xA9D0, 0xA9F0, 0xAA50, 0xABF0, 0xFF10,
   0x104A0, 0x10D30, 0x11066, 0x110F0, 0x11136, 0x111D0, 0x112F0, 0x11450, 0x114D0, 0x11650,
   0x116C0, 0x11730, 0x118E0, 0x11950, 0x11C50, 0x11D50, 0x11DA0, 0x16A60, 0x16AC0, 0x16B50,
   0x1D7CE, 0x1D7D8, 0x1D7E2, 0x1D7EC, 0x1D7F6, 0x1E140, 0x1E2F0, 0x1E950, 0x1FBF0]

/-- The plain character a wide one stands for in a numeral: a digit for a digit and a space for a
blank. Characters that stand for nothing stay, and no numeral holds them. -/
def plain (c : Char) : Char :=
  if c.toNat < 128 then c
  else if isWideBlank c then ' '
  else match digitZeros.find? (fun z => z ≤ c.toNat && c.toNat < z + 10) with
    | some z => Char.ofNat (48 + (c.toNat - z))
    | none => c

def digitValue? (c : Char) : Option Nat :=
  if '0' ≤ c ∧ c ≤ '9' then some (c.toNat - 48)
  else if 'a' ≤ c ∧ c ≤ 'f' then some (c.toNat - 87)
  else if 'A' ≤ c ∧ c ≤ 'F' then some (c.toNat - 55)
  else none

inductive Base
  | ten
  | sixteen
  deriving DecidableEq, Repr

def Base.value : Base → Nat
  | .ten => 10
  | .sixteen => 16

def Base.digit? (b : Base) (c : Char) : Option Nat :=
  (digitValue? c).filter (· < b.value)

/-- The digits of a digit string in which single underscores may stand between digits. -/
def Base.digits? (b : Base) : List Char → Option (List Nat)
  | [] => none
  | [c] => (b.digit? c).map ([·])
  | c :: '_' :: rest => do return (← b.digit? c) :: (← b.digits? rest)
  | c :: rest => do return (← b.digit? c) :: (← b.digits? rest)

def Base.ofDigits (b : Base) (ds : List Nat) : Nat :=
  ds.foldl (fun n d => n * b.value + d) 0

/-- The digits that are left after `0x`, and an underscore behind it, where base sixteen allows
it. -/
def Base.afterMark : Base → List Char → List Char
  | .sixteen, '0' :: x :: rest =>
    if x = 'x' ∨ x = 'X' then
      match rest with
      | '_' :: digits => digits
      | digits => digits
    else '0' :: x :: rest
  | _, cs => cs

def maxDecimalDigits : Nat := 4300

def Base.magnitude? (b : Base) (cs : List Char) : Option Nat := do
  let ds ← b.digits? (b.afterMark cs)
  if b = .ten ∧ ds.length > maxDecimalDigits then none else some (b.ofDigits ds)

def Base.parse? (b : Base) (cs : List Char) : Option Int :=
  match trimChars isPlainBlank (cs.map plain) with
  | '-' :: rest => (b.magnitude? rest).map fun n => -(n : Int)
  | '+' :: rest => (b.magnitude? rest).map Int.ofNat
  | rest => (b.magnitude? rest).map Int.ofNat

end Text

/-! ## Addresses -/

namespace Address

open Text

/-- The address a text names, `none` when it names none. The `0x` mark belongs to the numeral; the
`$` mark does not, so `$0x200` is an address too. -/
def ofText? (s : String) : Option Int :=
  match s.toList with
  | '0' :: 'x' :: rest => Base.sixteen.parse? ('0' :: 'x' :: rest)
  | '0' :: 'X' :: rest => Base.sixteen.parse? ('0' :: 'X' :: rest)
  | '$' :: rest => Base.sixteen.parse? rest
  | cs => Base.ten.parse? cs

end Address

end Chip8
