import Chip8.Word

/-!
# Images

A black and white picture, row by row from the top. A picture is made larger by showing every
pixel as a square of pixels.

In a PNG file an image is a grey picture with one byte for every pixel. The pixels are stored as
they are, without compression, in blocks of at most 65535 bytes.
-/

namespace Chip8

structure Image where
  width : Nat
  height : Nat
  /-- White is true. -/
  rows : List (List Bool)
  deriving DecidableEq, Repr

namespace Image

/-- Every element of a list several times in a row. -/
def repeatEach {α : Type} (count : Nat) (xs : List α) : List α :=
  xs.flatMap fun x => List.replicate count x

def scale (image : Image) (side : Nat) : Image where
  width := image.width * side
  height := image.height * side
  rows := repeatEach side (image.rows.map (repeatEach side))

/-! ## Limits -/

inductive SizeError
  /-- A side takes more than 31 bits. -/
  | sideTooLong
  /-- A side takes more than 63 bits. -/
  | numberTooLarge
  /-- There is no room for so many pixels. Nothing is said about it. -/
  | noRoom
  deriving DecidableEq, Repr

def SizeError.message : SizeError → String
  | sideTooLong => "signed integer is greater than maximum"
  | numberTooLarge => "Python int too large to convert to C long"
  | noRoom => ""

def checkSide (pixels : Nat) : Except SizeError Unit :=
  if 9223372036854775807 < pixels then .error .numberTooLarge
  else if 2147483647 < pixels then .error .sideTooLong
  else .ok ()

def maxPixels : Nat := 4294967296

/-- Whether there can be an image of a size. The width is looked at first. -/
def checkSize (width height : Nat) : Except SizeError Unit := do
  checkSide width
  checkSide height
  if maxPixels < width * height then throw .noRoom

/-! ## PNG files -/

def bigEndian (n : UInt32) : List UInt8 :=
  [(n >>> 24).toUInt8, (n >>> 16).toUInt8, (n >>> 8).toUInt8, n.toUInt8]

def littleEndian (n : Nat) : List UInt8 := [UInt8.ofNat (n % 256), UInt8.ofNat (n / 256)]

def crcBit (c : UInt32) : UInt32 :=
  if c &&& 1 = 0 then c >>> 1 else (c >>> 1) ^^^ 0xEDB88320

def crcByte (c : UInt32) (b : UInt8) : UInt32 := Nat.repeat crcBit 8 (c ^^^ b.toUInt32)

/-- The cyclic redundancy check of a block. -/
def crc (bytes : List UInt8) : UInt32 := bytes.foldl crcByte 0xFFFFFFFF ^^^ 0xFFFFFFFF

/-- The two sums over a block that end a stream. -/
def adler (bytes : List UInt8) : UInt32 :=
  let (a, b) := bytes.foldl (fun ((a, b) : Nat × Nat) byte =>
    let a := (a + byte.toNat) % 65521
    (a, (b + a) % 65521)) (1, 0)
  UInt32.ofNat (b * 65536 + a)

/-- A stream cut into blocks of at most 65535 bytes, the last one marked. -/
def storedBlocks (bytes : List UInt8) : List UInt8 :=
  if 65535 < bytes.length then
    0 :: (littleEndian 65535 ++ littleEndian 0 ++ bytes.take 65535) ++
      storedBlocks (bytes.drop 65535)
  else 1 :: (littleEndian bytes.length ++ littleEndian (65535 - bytes.length) ++ bytes)
termination_by bytes.length
decreasing_by simp only [List.length_drop]; omega

def chunk (name : String) (bytes : List UInt8) : List UInt8 :=
  let body := name.toUTF8.toList ++ bytes
  bigEndian (UInt32.ofNat bytes.length) ++ body ++ bigEndian (crc body)

/-- Every row of pixels behind the number of its filter, which is none. -/
def scanLines (image : Image) : List UInt8 :=
  image.rows.flatMap fun row => 0 :: row.map fun p => if p then 255 else 0

def toPng (image : Image) : List UInt8 :=
  let lines := image.scanLines
  [0x89, 0x50, 0x4E, 0x47, 0x0D, 0x0A, 0x1A, 0x0A] ++
    chunk "IHDR" (bigEndian (UInt32.ofNat image.width) ++ bigEndian (UInt32.ofNat image.height) ++
      [8, 0, 0, 0, 0]) ++
    chunk "IDAT" ([0x78, 0x01] ++ storedBlocks lines ++ bigEndian (adler lines)) ++
    chunk "IEND" []

end Image

end Chip8
