import Chip8.Word

/-!
# Random bytes

The machine draws a random byte now and then. A source either plays a fixed list of bytes over and
over, or generates bytes from a seed; drawing a byte gives the source as it is afterwards.

The generator is the Mersenne twister: 32-bit numbers from 624 cells of state. Its cells are filled
from a list of key words; after that it hands out one tempered cell at a time, and computes all
cells anew when they are used up.
-/

namespace Chip8.Random

/-- The state: the cells, and how many of them have been handed out. -/
structure Twister where
  cells : Vector UInt32 624
  used : Nat
  deriving DecidableEq, Repr

namespace Twister

/-! ## Seeding -/

/-- A cell folded onto itself before it is multiplied. -/
def folded (c : UInt32) : UInt32 := c ^^^ (c >>> 30)

def linearCells (s : UInt32) : Vector UInt32 624 :=
  Fin.foldl 624 (fun cells i =>
      if i = 0 then cells.set i s
      else cells.set i (1812433253 * folded cells[i - 1] + UInt32.ofNat i))
    (Vector.replicate 624 0)

/-- The cell that is mixed in round `k`: all but the first, over and over. -/
def mixedCell (k : Nat) : Fin 624 := ⟨k % 623 + 1, by omega⟩

/-- Write the cell of round `k`. The last cell is also the one before the second. -/
def putMixed (cells : Vector UInt32 624) (k : Nat) (c : UInt32) : Vector UInt32 624 :=
  let cells := cells.set (mixedCell k) c
  if mixedCell k = 623 then cells.set 0 c else cells

/-- Mix the key into the cells, word after word, in as many rounds as the longer of both has. -/
def mixKey (key : Array UInt32) (cells : Vector UInt32 624) : Vector UInt32 624 :=
  (List.range (max 624 key.size)).foldl (fun cells k =>
      let i := mixedCell k
      let j := k % key.size
      putMixed cells k
        ((cells[i] ^^^ (folded cells[i - 1] * 1664525)) + key.getD j 0 + UInt32.ofNat j))
    cells

/-- Mix the cells among themselves, from the round on where the key ended. -/
def mixCells (start : Nat) (cells : Vector UInt32 624) : Vector UInt32 624 :=
  (List.range 623).foldl (fun cells m =>
      let i := mixedCell (start + m)
      putMixed cells (start + m)
        ((cells[i] ^^^ (folded cells[i - 1] * 1566083941)) - UInt32.ofNat i))
    cells

def ofKey (key : Array UInt32) : Twister where
  cells := (mixCells (max 624 key.size) (mixKey key (linearCells 19650218))).set 0 0x80000000
  used := 624

/-- The words of a number in base 2³², the least significant first. Zero has one word. -/
def words (n : Nat) : List UInt32 :=
  if n < 4294967296 then [UInt32.ofNat n]
  else UInt32.ofNat (n % 4294967296) :: words (n / 4294967296)
termination_by n
decreasing_by omega

/-- The generator of a seed. A seed and its negative have the same generator. -/
def ofSeed (seed : Int) : Twister := ofKey (words seed.natAbs).toArray

/-! ## Drawing numbers -/

def twisted (c next far : UInt32) : UInt32 :=
  let y := (c &&& 0x80000000) ||| (next &&& 0x7FFFFFFF)
  far ^^^ (y >>> 1) ^^^ (if y &&& 1 = 0 then 0 else 0x9908B0DF)

/-- All cells anew, each from cells that may be new already. -/
def regenerate (cells : Vector UInt32 624) : Vector UInt32 624 :=
  Fin.foldl 624 (fun cells i => cells.set i (twisted cells[i] cells[i + 1] cells[i + 397])) cells

def tempered (c : UInt32) : UInt32 :=
  let y := c ^^^ (c >>> 11)
  let y := y ^^^ ((y <<< 7) &&& 0x9D2C5680)
  let y := y ^^^ ((y <<< 15) &&& 0xEFC60000)
  y ^^^ (y >>> 18)

def next (t : Twister) : UInt32 × Twister :=
  if h : t.used < 624 then (tempered (t.cells[t.used]), { t with used := t.used + 1 })
  else
    let cells := regenerate t.cells
    (tempered cells[0], ⟨cells, 1⟩)

/-! ## Drawing bytes -/

/-- The first of at most `fuel` draws whose top nine bits are below 256. -/
def byteWithin : Nat → Twister → UInt8 × Twister
  | 0, t => (0, t)
  | fuel + 1, t =>
    let (c, t) := t.next
    let top := (c >>> 23).toNat
    if top < 256 then (UInt8.ofNat top, t) else byteWithin fuel t

/-- More draws than can ever be refused one after the other: the top bits of the numbers satisfy
a recurrence with as many bits as the state has, 19937, so a run of ones is no longer than that. -/
def maxRefusals : Nat := 20000

def nextByte (t : Twister) : UInt8 × Twister := byteWithin maxRefusals t

end Twister

/-! ## Sources -/

/-- A list of bytes that is played over and over, and the place of the next one. -/
structure Loop where
  bytes : Array UInt8
  position : Nat
  position_lt : position < bytes.size

def Loop.next (l : Loop) : UInt8 × Loop :=
  have h := l.position_lt
  (l.bytes[l.position], ⟨l.bytes, (l.position + 1) % l.bytes.size, Nat.mod_lt _ (by omega)⟩)

inductive Source
  | loop (l : Loop)
  | twister (t : Twister)

namespace Source

def next : Source → UInt8 × Source
  | loop l => let (b, l) := l.next; (b, loop l)
  | twister t => let (b, t) := t.nextByte; (b, twister t)

structure EmptyLoop where
  deriving DecidableEq, Repr

def EmptyLoop.message (_ : EmptyLoop) : String := "SequenceRandomSource needs at least one value"

/-- The source that plays the residues of the given integers. -/
def ofList (values : List Int) : Except EmptyLoop Source :=
  let bytes := (values.map byteOf).toArray
  if h : 0 < bytes.size then .ok (loop ⟨bytes, 0, h⟩) else .error ⟨⟩

def constant (b : UInt8) : Source := loop ⟨#[b], 0, by simp⟩

def ofSeed (seed : Int) : Source := twister (.ofSeed seed)

def take : Nat → Source → List UInt8
  | 0, _ => []
  | count + 1, s => let (b, s) := s.next; b :: take count s

end Source

end Chip8.Random
