import Chip8.Instruction.Assembly

/-!
# Listings

A listing goes through a block of bytes from front to back, two bytes at a time, and shows each
pair as an instruction or as a data word. The last byte of a block of odd length is shown by
itself. Nothing is left out and nothing is shown twice: the bytes of the items, one after the
other, are the block.
-/

namespace Chip8

open Chip8.Text

structure ListingItem where
  address : Int
  assembly : Assembly
  bytes : List UInt8
  deriving DecidableEq, Repr

namespace ListingItem

def ofPair (address : Int) (high low : UInt8) : ListingItem :=
  ⟨address, (decode (wordOfBytes high low)).assembly, [high, low]⟩

def ofByte (address : Int) (b : UInt8) : ListingItem := ⟨address, .dataByte b, [b]⟩

def size (item : ListingItem) : Nat := item.bytes.length

/-- The bytes as one number, the first byte the most significant. -/
def opcode (item : ListingItem) : Nat := item.bytes.foldl (fun n b => n * 256 + b.toNat) 0

def opcodeText (item : ListingItem) : String := item.bytes.foldl (fun s b => s ++ hexByte b) "$"

def isData (item : ListingItem) : Bool := item.assembly.isData

def text (item : ListingItem) : String := item.assembly.text

/-- The bytes with a space between them, in a column that has room for two. -/
def bytesText (item : ListingItem) : String :=
  let s := " ".intercalate (item.bytes.map hexByte)
  s ++ String.ofList (List.replicate (5 - s.length) ' ')

def shortLine (item : ListingItem) : String := s!"${hex 4 item.address}: {item.text}"

def line (item : ListingItem) : String :=
  s!"${hex 4 item.address}: {item.bytesText}  {item.text}"

end ListingItem

def listing (address : Int) : List UInt8 → List ListingItem
  | high :: low :: rest => .ofPair address high low :: listing (address + 2) rest
  | [b] => [.ofByte address b]
  | [] => []

/-- The first items of a listing. A negative count stands for none, a missing one for all. -/
def listingUpTo (count : Option Int) (address : Int) (data : List UInt8) : List ListingItem :=
  match count with
  | none => listing address data
  | some n => listing address (data.take (2 * n.toNat))

def listingText (items : List ListingItem) : String :=
  "\n".intercalate (items.map ListingItem.line)

structure OffsetError where
  offset : Int
  length : Nat
  deriving DecidableEq, Repr

def OffsetError.message (e : OffsetError) : String :=
  s!"Offset {e.offset} beyond data length {e.length}"

/-- The item that starts at `offset` in the block and is shown at `address`. -/
def listingItemAt (data : List UInt8) (address offset : Int) : Except OffsetError ListingItem :=
  if offset < 0 then .error ⟨offset, data.length⟩
  else match data.drop offset.toNat with
    | high :: low :: _ => .ok (.ofPair address high low)
    | [b] => .ok (.ofByte address b)
    | [] => .error ⟨offset, data.length⟩

/-- The items cover the block exactly once. -/
theorem listing_bytes (address : Int) (data : List UInt8) :
    (listing address data).flatMap ListingItem.bytes = data := by
  fun_induction listing address data with
  | case1 address high low rest ih => simp [ListingItem.ofPair, ih]
  | case2 => rfl
  | case3 => rfl

end Chip8
