/-!
# Bytes, words and tables

The machine's numbers are bytes and big-endian words of two bytes. A host may hand in any integer;
what the machine keeps of it is its residue.

A table has an entry for every number below its size. Memory, registers, keys and rows of pixels
are tables; all of them are read with `Vector.get` and written with `Table.put`.
-/

namespace Chip8

def byteOf (n : Int) : UInt8 := UInt8.ofNat (n % 256).toNat

def wordOf (n : Int) : UInt16 := UInt16.ofNat (n % 65536).toNat

/-- The word with the given bytes, the first the more significant. -/
def wordOfBytes (high low : UInt8) : UInt16 := UInt16.ofNat (high.toNat * 256 + low.toNat)

def highByte (w : UInt16) : UInt8 := UInt8.ofNat (w.toNat / 256)

def lowByte (w : UInt16) : UInt8 := UInt8.ofNat (w.toNat % 256)

theorem toNat_byteOf (n : Int) : ((byteOf n).toNat : Int) = n % 256 := by
  simp only [byteOf, UInt8.toNat_ofNat']
  omega

theorem toNat_wordOf (n : Int) : ((wordOf n).toNat : Int) = n % 65536 := by
  simp only [wordOf, UInt16.toNat_ofNat']
  omega

theorem byteOf_toNat (b : UInt8) : byteOf b.toNat = b := by
  apply UInt8.toNat_inj.mp
  have := b.toNat_lt
  have := toNat_byteOf b.toNat
  omega

theorem wordOf_toNat (w : UInt16) : wordOf w.toNat = w := by
  apply UInt16.toNat_inj.mp
  have := w.toNat_lt
  have := toNat_wordOf w.toNat
  omega

theorem wordOf_inj {a b : Int} : wordOf a = wordOf b ↔ a % 65536 = b % 65536 := by
  rw [← UInt16.toNat_inj, ← Int.natCast_inj, toNat_wordOf, toNat_wordOf]

theorem toNat_wordOfBytes (high low : UInt8) :
    (wordOfBytes high low).toNat = high.toNat * 256 + low.toNat := by
  have h := high.toNat_lt
  have l := low.toNat_lt
  simp only [wordOfBytes, UInt16.toNat_ofNat']
  omega

theorem toNat_highByte (w : UInt16) : (highByte w).toNat = w.toNat / 256 := by
  have h := w.toNat_lt
  simp only [highByte, UInt8.toNat_ofNat']
  omega

theorem toNat_lowByte (w : UInt16) : (lowByte w).toNat = w.toNat % 256 := by
  simp only [lowByte, UInt8.toNat_ofNat']
  omega

theorem wordOfBytes_highByte_lowByte (w : UInt16) : wordOfBytes (highByte w) (lowByte w) = w := by
  apply UInt16.toNat_inj.mp
  rw [toNat_wordOfBytes, toNat_highByte, toNat_lowByte]
  omega

theorem highByte_wordOfBytes (high low : UInt8) : highByte (wordOfBytes high low) = high := by
  apply UInt8.toNat_inj.mp
  have := low.toNat_lt
  rw [toNat_highByte, toNat_wordOfBytes]
  omega

theorem lowByte_wordOfBytes (high low : UInt8) : lowByte (wordOfBytes high low) = low := by
  apply UInt8.toNat_inj.mp
  have := low.toNat_lt
  rw [toNat_lowByte, toNat_wordOfBytes]
  omega

/-! ## Tables -/

namespace Table

variable {α : Type} {n : Nat}

def put (t : Vector α n) (i : Fin n) (a : α) : Vector α n := t.set i a

theorem get_put (t : Vector α n) (i j : Fin n) (a : α) :
    (put t i a).get j = if i = j then a else t.get j := by
  rcases i with ⟨i, hi⟩
  rcases j with ⟨j, hj⟩
  show (t.set i a)[j] = if _ then a else t[j]
  rw [Vector.getElem_set]
  simp only [Fin.mk.injEq]

@[simp] theorem get_put_self (t : Vector α n) (i : Fin n) (a : α) : (put t i a).get i = a := by
  simp [get_put]

theorem get_put_of_ne (t : Vector α n) {i j : Fin n} (a : α) (h : i ≠ j) :
    (put t i a).get j = t.get j := by
  simp [get_put, h]

@[simp] theorem get_replicate (a : α) (i : Fin n) : (Vector.replicate n a).get i = a := by
  show (Vector.replicate n a)[i.val] = a
  rw [Vector.getElem_replicate]

@[simp] theorem get_ofFn (f : Fin n → α) (i : Fin n) : (Vector.ofFn f).get i = f i := by
  show (Vector.ofFn f)[i.val] = f i
  rw [Vector.getElem_ofFn]

theorem ext {s t : Vector α n} (h : ∀ i, s.get i = t.get i) : s = t :=
  Vector.ext fun i hi => h ⟨i, hi⟩

end Table

end Chip8
