import Chip8.Proofs.Machine.Changes
import Chip8.Proofs.Machine.Refusal

/-!
# Registers and memory

A store copies the first registers to the block at the index and a load copies them back; the
decimal digits of a register are stored in the same way. A block that reaches the end of the memory
goes on at its beginning, and stores and loads leave the index behind the block in some dialects.

Where the policy refuses addresses, a block with an address beyond the memory is refused as a whole
(`Beyond`). Neither registers nor memory are touched then. What does change is the wait for a key:
whoever waited for one does so no longer, although nothing was executed.
-/

namespace Chip8

/-- The number of bytes that an instruction stores or loads at the index. -/
def Instruction.blockSize (i : Instruction) : Nat :=
  match i.op with
  | .digits => 3
  | .store | .load => i.x + 1
  | _ => 0

namespace Machine

/-! ## Blocks at the index -/

/-- The cell that many bytes behind the index. -/
def cellAt (m : Machine) (k : Nat) : Fin 4096 := Policy.cellOf (m.index.toNat + k)

/-- Some address of a block at the index is above the memory, and the policy refuses it. -/
def Beyond (m : Machine) (count : Nat) : Prop :=
  m.memory.policy = .fault ∧ ∃ k < count, 0xFFF < m.index.toNat + k

/-- The machine on which an instruction from outside takes effect. -/
def awake (m : Machine) : Machine := { m with waitingForKey := false }

/-- Where a store or load leaves the index. -/
def indexBehind (m : Machine) (count : Nat) : Nat :=
  if m.dialect.movesIndex then (m.index.toNat + count) % 65536 else m.index.toNat

/-- The machine with bytes put into the block at the index. -/
def putBlock (m : Machine) (bytes : List UInt8) : Machine :=
  { m with memory := { m.memory with cells := m.memory.cells.overwrite m.index.toNat bytes } }

variable {m m' : Machine} {i : Instruction} {count : Nat}

theorem check_of_room (room : ¬ m.Beyond count) :
    m.memory.policy.check m.index.toNat count = .ok () := by
  rw [Policy.check_eq_ok_iff]
  intro k nonneg less
  obtain ⟨n, rfl⟩ := Int.eq_ofNat_of_zero_le nonneg
  by_contra refused
  obtain ⟨refuses, above⟩ := (Policy.not_allows_iff (n := m.index.toNat + n)).mp refused
  exact room ⟨refuses, n, Int.ofNat_lt.mp less, above⟩

theorem check_of_beyond (beyond : m.Beyond count) :
    ∃ f, m.memory.policy.check m.index.toNat count = .error f := by
  obtain ⟨refuses, k, less, above⟩ := beyond
  cases checked : m.memory.policy.check m.index.toNat count with
  | error f => exact ⟨f, rfl⟩
  | ok =>
      have allowed := (Policy.check_eq_ok_iff _ _ _).mp checked k (by omega) (by omega)
      exact absurd allowed (Policy.not_allows_iff.mpr ⟨refuses, above⟩)

theorem storeBlock_of_room {bytes : List UInt8} (room : ¬ m.Beyond bytes.length) :
    m.storeBlock bytes = (m.putBlock bytes).done := by
  have checked := check_of_room room
  rw [storeBlock, checked]
  dsimp only
  rw [Memory.writeBytes_of_check checked]
  rfl

theorem storeBlock_of_beyond {bytes : List UInt8} (beyond : m.Beyond bytes.length) :
    ∃ f, m.storeBlock bytes = m.refused f := by
  obtain ⟨f, checked⟩ := check_of_beyond beyond
  exact ⟨f, by rw [storeBlock, checked]⟩

theorem loadBlock_of_room (room : ¬ m.Beyond count) :
    m.loadBlock count = .ok (m.memory.blockAt m.index.toNat count) := by
  have checked := check_of_room room
  rw [loadBlock, checked]
  exact Memory.readBytes_of_check checked

theorem loadBlock_of_beyond (beyond : m.Beyond count) : ∃ f, m.loadBlock count = .error f := by
  obtain ⟨f, checked⟩ := check_of_beyond beyond
  refine ⟨f, ?_⟩
  rw [loadBlock, checked]
  rfl

/-! ## Single instructions -/

theorem length_firstRegisters (m : Machine) (x : Fin 16) :
    (m.v.toList.take (x + 1)).length = x + 1 := by
  rw [List.length_take, Vector.length_toList]
  exact Nat.min_eq_left x.isLt

theorem getElem?_firstRegisters (m : Machine) {x k : Fin 16} (h : k ≤ x) :
    (m.v.toList.take (x + 1))[k.val]? = some (m.v.get k) := by
  rw [List.getElem?_take_of_lt (Nat.lt_succ_of_le h), Vector.getElem?_toList,
    Vector.getElem?_eq_getElem k.isLt]
  rfl

theorem effect_store (op : i.op = .store) (room : ¬ m.Beyond (i.x + 1)) :
    m.effect i =
      ((m.putBlock (m.v.toList.take (i.x + 1))).passBlock (i.x + 1)).done := by
  rw [← length_firstRegisters m i.x] at room
  rw [effect, op]
  show (m.storeBlock (m.v.toList.take (i.x + 1))).andThen _ = _
  rw [storeBlock_of_room room]
  rfl

theorem effect_load (op : i.op = .load) (room : ¬ m.Beyond (i.x + 1)) :
    m.effect i =
      ((m.setRegisters (m.memory.blockAt m.index.toNat (i.x + 1))).passBlock (i.x + 1)).done := by
  rw [effect, op]
  exact loadRegisters_of_ok (loadBlock_of_room room)

theorem effect_digits (op : i.op = .digits) (room : ¬ m.Beyond 3) :
    m.effect i = (m.putBlock (decimalDigits (m.v.get i.x))).done := by
  rw [effect, op]
  exact storeBlock_of_room room

/-- A block beyond the memory is refused before anything is touched. -/
theorem effect_of_beyond (op : i.op = .store ∨ i.op = .load ∨ i.op = .digits)
    (beyond : m.Beyond i.blockSize) : ∃ f, m.effect i = m.refused f := by
  unfold Instruction.blockSize at beyond
  rcases op with op | op | op <;> rw [op] at beyond <;> rw [effect, op]
  · rw [← length_firstRegisters m i.x] at beyond
    obtain ⟨f, refused⟩ := storeBlock_of_beyond beyond
    refine ⟨f, ?_⟩
    show (m.storeBlock (m.v.toList.take (i.x + 1))).andThen _ = _
    rw [refused]
    rfl
  · obtain ⟨f, refused⟩ := loadBlock_of_beyond beyond
    exact ⟨f, loadRegisters_of_error refused⟩
  · exact storeBlock_of_beyond beyond

theorem indexBehind_setRegisters (m : Machine) (bytes : List UInt8) (count : Nat) :
    (m.setRegisters bytes).indexBehind count = m.indexBehind count := by
  have set : ∃ v, m.setRegisters bytes = { m with v := v } := ⟨_, rfl⟩
  obtain ⟨v, set⟩ := set
  rw [set]
  rfl

theorem toNat_index_passBlock (m : Machine) (x : Fin 16) :
    (m.passBlock (x + 1)).index.toNat = m.indexBehind (x + 1) := by
  unfold passBlock indexBehind
  split
  · have size : (UInt16.ofNat (x + 1)).toNat = x + 1 := by
      rw [UInt16.toNat_ofNat']
      omega
    show (m.index + UInt16.ofNat (x + 1)).toNat = _
    rw [UInt16.toNat_add, size]
  · rfl

theorem memory_passBlock (m : Machine) (count : Nat) : (m.passBlock count).memory = m.memory := by
  obtain ⟨index, passed⟩ := passBlock_frame m count
  rw [passed]

theorem v_passBlock (m : Machine) (count : Nat) : (m.passBlock count).v = m.v := by
  obtain ⟨index, passed⟩ := passBlock_frame m count
  rw [passed]

theorem get_setRegisters_blockAt {x r : Fin 16} (h : r ≤ x) :
    (m.setRegisters (m.memory.blockAt m.index.toNat (x + 1))).v.get r =
      m.memory.cells.get (m.cellAt r) := by
  have there : (List.range (x + 1))[r.val]? = some r.val := List.getElem?_range (Nat.lt_succ_of_le h)
  rw [setRegisters, Table.get_ofFn, List.getD_eq_getElem?_getD, Memory.blockAt, List.getElem?_map,
    there]
  rfl

theorem toNat_decimalDigits (b : UInt8) : ∃ h t u : UInt8, decimalDigits b = [h, t, u] ∧
    h.toNat ≤ 2 ∧ t.toNat ≤ 9 ∧ u.toNat ≤ 9 ∧
      100 * h.toNat + 10 * t.toNat + u.toNat = b.toNat := by
  have bound := b.toNat_lt
  have hundreds : (b / 100).toNat = b.toNat / 100 := UInt8.toNat_div b 100
  have tens : (b / 10 % 10).toNat = b.toNat / 10 % 10 := by
    rw [UInt8.toNat_mod, UInt8.toNat_div]
    rfl
  have units : (b % 10).toNat = b.toNat % 10 := UInt8.toNat_mod b 10
  refine ⟨_, _, _, rfl, ?_⟩
  rw [hundreds, tens, units]
  omega

/-! ## What is transferred -/

/-- The registers up to X are in the block at the index. -/
structure Stores (m : Machine) (x : Fin 16) (m' : Machine) : Prop where
  inside : ∀ k ≤ x, m'.memory.cells.get (m.cellAt k) = m.v.get k
  outside : ∀ c, (∀ k ≤ x, c ≠ m.cellAt k) → m'.memory.cells.get c = m.memory.cells.get c
  index : m'.index.toNat = m.indexBehind (x + 1)
  frame : ∃ cells index, m' =
    { m with memory := ⟨m.memory.policy, cells⟩, index := index, waitingForKey := false }

/-- The block at the index is in the registers up to X. -/
structure Loads (m : Machine) (x : Fin 16) (m' : Machine) : Prop where
  inside : ∀ r ≤ x, m'.v.get r = m.memory.cells.get (m.cellAt r)
  outside : ∀ r, x < r → m'.v.get r = m.v.get r
  index : m'.index.toNat = m.indexBehind (x + 1)
  frame : ∃ v index, m' = { m with v := v, index := index, waitingForKey := false }

/-- The hundreds, tens and units of a register are in the block at the index. -/
structure StoresDigits (m : Machine) (x : Fin 16) (m' : Machine) : Prop where
  inside : ∃ h t u : UInt8,
    (h.toNat ≤ 2 ∧ t.toNat ≤ 9 ∧ u.toNat ≤ 9 ∧
      100 * h.toNat + 10 * t.toNat + u.toNat = (m.v.get x).toNat) ∧
    m'.memory.cells.get (m.cellAt 0) = h ∧ m'.memory.cells.get (m.cellAt 1) = t ∧
      m'.memory.cells.get (m.cellAt 2) = u
  outside : ∀ c, (∀ k < 3, c ≠ m.cellAt k) → m'.memory.cells.get c = m.memory.cells.get c
  frame : ∃ cells, m' =
    { m with memory := ⟨m.memory.policy, cells⟩, waitingForKey := false }

/-- The registers up to X of one machine are back in another one whose other registers, memory and
index are given. -/
structure Restores (m : Machine) (x : Fin 16) (v : Vector UInt8 16) (memory : Memory)
    (index : UInt16) (m' : Machine) : Prop where
  inside : ∀ r ≤ x, m'.v.get r = m.v.get r
  outside : ∀ r, x < r → m'.v.get r = v.get r
  memory : m'.memory = memory
  index : m'.index = index

theorem stores_of_room (op : i.op = .store) (room : ¬ m.Beyond (i.x + 1)) :
    ∃ m', m.execute i = m'.done ∧ Stores m i.x m' := by
  have length := length_firstRegisters m.awake i.x
  refine ⟨_, effect_store (m := m.awake) op room, ?_, ?_, ?_, ?_⟩
  · intro k within
    rw [memory_passBlock]
    refine Cells.get_overwrite_inside ?_ (getElem?_firstRegisters m within)
    omega
  · intro c outside
    rw [memory_passBlock]
    refine Cells.get_overwrite fun k less => ?_
    have below : k < i.x + 1 := length ▸ less
    exact outside ⟨k, by omega⟩ (Nat.le_of_lt_succ below)
  · rw [toNat_index_passBlock]
    rfl
  · obtain ⟨index, passed⟩ :=
      passBlock_frame (m.awake.putBlock (m.v.toList.take (i.x + 1))) (i.x + 1)
    exact ⟨_, index, passed⟩

theorem loads_of_room (op : i.op = .load) (room : ¬ m.Beyond (i.x + 1)) :
    ∃ m', m.execute i = m'.done ∧ Loads m i.x m' := by
  have length := m.memory.length_blockAt m.index.toNat (i.x + 1)
  have effect := effect_load (m := m.awake) op room
  have frame : ∃ v index, (m.awake.effect i).1 = { m.awake with v := v, index := index } := by
    rw [Machine.effect, op]
    exact loadRegisters_frame m.awake (i.x + 1)
  rw [effect] at frame
  refine ⟨_, effect, ?_, ?_, ?_, frame⟩
  · intro r within
    rw [v_passBlock]
    exact get_setRegisters_blockAt (m := m.awake) within
  · intro r behind
    rw [v_passBlock]
    refine get_setRegisters_of_le (m := m.awake) ?_
    exact length.trans_le behind
  · rw [toNat_index_passBlock, indexBehind_setRegisters]
    rfl

theorem storesDigits_of_room (op : i.op = .digits) (room : ¬ m.Beyond 3) :
    ∃ m', m.execute i = m'.done ∧ StoresDigits m i.x m' := by
  refine ⟨_, effect_digits (m := m.awake) op room, ?_, ?_, ⟨_, rfl⟩⟩
  · obtain ⟨h, t, u, written, numbers⟩ := toNat_decimalDigits (m.v.get i.x)
    have digit {k : Nat} {b : UInt8} (here : [h, t, u][k]? = some b) :
        (m.awake.putBlock (decimalDigits (m.v.get i.x))).memory.cells.get (m.cellAt k) = b :=
      Cells.get_overwrite_inside (by simp [decimalDigits]) (written ▸ here)
    exact ⟨h, t, u, numbers, digit rfl, digit rfl, digit rfl⟩
  · intro c outside
    exact Cells.get_overwrite fun k less => outside k less

/-- What was stored is loaded back from the same place, whatever the registers hold by then. -/
theorem Stores.restores {x : Fin 16} (stores : Stores m x m') (room : ¬ m.Beyond (x + 1))
    (v : Vector UInt8 16) {j : Instruction} (op : j.op = .load) (same : j.x = x) :
    ∃ m'', { m' with v := v, index := m.index }.execute j = m''.done ∧
      Restores m x v m'.memory m'.index m'' := by
  subst same
  obtain ⟨inside, -, index, cells, index', rfl⟩ := stores
  obtain ⟨m'', executed, loads⟩ := loads_of_room
    (m := { m with memory := ⟨m.memory.policy, cells⟩, v := v, waitingForKey := false }) op room
  refine ⟨m'', executed, fun r within => ?_, loads.outside, ?_, ?_⟩
  · exact (loads.inside r within).trans (inside r within)
  · obtain ⟨_, _, rfl⟩ := loads.frame
    rfl
  · exact UInt16.toNat_inj.mp (loads.index.trans index.symm)

/-! ## Transfers -/

/-- What storing and loading at the index comes to. -/
structure Transfers (m : Machine) (i : Instruction) : Prop where
  store : i.op = .store → ∀ m', m.execute i = m'.done → Stores m i.x m' ∧
    ∀ (v : Vector UInt8 16) (j : Instruction), j.op = .load → j.x = i.x →
      ∃ m'', { m' with v := v, index := m.index }.execute j = m''.done ∧
        Restores m i.x v m'.memory m'.index m''
  load : i.op = .load → ∀ m', m.execute i = m'.done → Loads m i.x m'
  digits : i.op = .digits → ∀ m', m.execute i = m'.done → StoresDigits m i.x m'
  fails : (∃ m' f, m.execute i = (m', .error f)) ↔ m.Beyond i.blockSize
  kept : ∀ m' f, m.execute i = (m', .error f) → m' = { m with waitingForKey := false }

/-- An instruction that fails changes nothing. -/
def FailsUnchanged (m : Machine) (i : Instruction) : Prop :=
  ∀ m' f, m.execute i = (m', .error f) → m' = m

theorem FailsUnchanged.eq_of_error {f : Fault} (unchanged : FailsUnchanged m i)
    (failed : (m.execute i).2 = .error f) : (m.execute i).1 = m :=
  unchanged _ f (Prod.ext rfl failed)

theorem eq_of_done {r : Outcome} {m₁ m₂ : Machine} (h₁ : r = m₁.done) (h₂ : r = m₂.done) :
    m₁ = m₂ := congrArg Prod.fst (h₁.symm.trans h₂)

theorem room_of_done (op : i.op = .store ∨ i.op = .load ∨ i.op = .digits)
    (executed : m.execute i = m'.done) : ¬ m.Beyond i.blockSize := by
  intro beyond
  obtain ⟨f, refused⟩ := effect_of_beyond (m := m.awake) op beyond
  exact done_ne_error (executed.symm.trans refused)

theorem done_of_room (op : i.op = .store ∨ i.op = .load ∨ i.op = .digits)
    (room : ¬ m.Beyond i.blockSize) : ∃ m' : Machine, m.execute i = m'.done := by
  unfold Instruction.blockSize at room
  rcases op with op | op | op <;> rw [op] at room
  · obtain ⟨m', executed, -⟩ := stores_of_room op room
    exact ⟨m', executed⟩
  · obtain ⟨m', executed, -⟩ := loads_of_room op room
    exact ⟨m', executed⟩
  · obtain ⟨m', executed, -⟩ := storesDigits_of_room op room
    exact ⟨m', executed⟩

/-- A transfer fails for the block alone. -/
theorem execute_fails_iff (op : i.op = .store ∨ i.op = .load ∨ i.op = .digits) :
    (∃ m' f, m.execute i = (m', .error f)) ↔ m.Beyond i.blockSize := by
  constructor
  · rintro ⟨m', f, failed⟩
    by_contra room
    obtain ⟨m₁, executed⟩ := done_of_room op room
    exact done_ne_error (executed.symm.trans failed)
  · intro beyond
    obtain ⟨f, refused⟩ := effect_of_beyond (m := m.awake) op beyond
    exact ⟨m.awake, f, refused⟩

theorem transfers (op : i.op = .store ∨ i.op = .load ∨ i.op = .digits) : Transfers m i := by
  have size {m' : Machine} (executed : m.execute i = m'.done) : ¬ m.Beyond i.blockSize :=
    room_of_done op executed
  refine ⟨?_, ?_, ?_, execute_fails_iff op, fun m' f failed => (effect_error failed).1⟩
  · intro store m' executed
    have room := size executed
    rw [Instruction.blockSize, store] at room
    obtain ⟨m₁, stored, stores⟩ := stores_of_room store room
    obtain rfl := eq_of_done stored executed
    exact ⟨stores, fun v j op same => stores.restores room v op same⟩
  · intro load m' executed
    have room := size executed
    rw [Instruction.blockSize, load] at room
    obtain ⟨m₁, loaded, loads⟩ := loads_of_room load room
    obtain rfl := eq_of_done loaded executed
    exact loads
  · intro digits m' executed
    have room := size executed
    rw [Instruction.blockSize, digits] at room
    obtain ⟨m₁, stored, stores⟩ := storesDigits_of_room digits room
    obtain rfl := eq_of_done stored executed
    exact stores

/-- **Stores, loads and digits.** What is stored stands in the block and nowhere else, is loaded
back whatever happened to the registers, and moves the index in the same way. A transfer fails
exactly if its block is refused, and then leaves registers and memory alone. It changes nothing at
all unless the machine was waiting for a key. -/
theorem transfers_exact (m : Machine) (i : Instruction)
    (op : i.op = .store ∨ i.op = .load ∨ i.op = .digits) :
    Transfers m i ∧
      (FailsUnchanged m i ↔ ¬ (m.Beyond i.blockSize ∧ m.waitingForKey = true)) := by
  refine ⟨transfers op, ?_, ?_⟩
  · rintro unchanged ⟨beyond, waiting⟩
    obtain ⟨m', f, failed⟩ := (execute_fails_iff op).mpr beyond
    have same := unchanged m' f failed
    have kept := (transfers op).kept m' f failed
    rw [same] at kept
    have stopped := congrArg Machine.waitingForKey kept
    exact Bool.noConfusion (waiting.symm.trans stopped)
  · intro calm m' f failed
    have beyond := (execute_fails_iff op).mp ⟨m', f, failed⟩
    have waiting : m.waitingForKey = false := by
      by_contra waits
      exact calm ⟨beyond, eq_true_of_ne_false waits⟩
    have same : { m with waitingForKey := false } = m := by rw [← waiting]
    exact ((transfers op).kept m' f failed).trans same

/-- Numbers in the registers and the highest index: their block goes over the end of the memory and
on to its beginning, and the index moves behind it. -/
def aroundEnd : Machine :=
  { fresh .legacy .wrap (.constant 0) with
    v := Vector.ofFn fun r => UInt8.ofNat (7 + r), index := 0xFFFF }

/-- V0 to V2 are stored, the registers are filled with other numbers, and V0 to V2 are loaded. -/
theorem aroundEnd_exact :
    ∃ m' m'' : Machine, aroundEnd.execute (decode 0xF255) = m'.done ∧
      m'.memory.cells.get (Policy.cellOf 0x10001) = 9 ∧ m'.index.toNat = 2 ∧
      { m' with v := Vector.replicate 16 0xAA, index := 0xFFFF }.execute (decode 0xF265) =
        m''.done ∧
      m''.v.get 2 = 9 ∧ m''.v.get 3 = 0xAA ∧ m''.index = m'.index := by
  have store : decode 0xF255 = ⟨.store, 0xF255⟩ := by decide +kernel
  have load : decode 0xF265 = ⟨.load, 0xF265⟩ := by decide +kernel
  rw [store, load]
  obtain ⟨transfers, -⟩ := transfers_exact aroundEnd ⟨.store, 0xF255⟩ (Or.inl rfl)
  have went : (aroundEnd.execute ⟨.store, 0xF255⟩).2 = .ok () := by decide +kernel
  have executed : aroundEnd.execute ⟨.store, 0xF255⟩ =
      (aroundEnd.execute ⟨.store, 0xF255⟩).1.done := Prod.ext rfl went
  obtain ⟨stores, loads⟩ := transfers.store rfl _ executed
  obtain ⟨m'', loaded, restores⟩ :=
    loads (Vector.replicate 16 0xAA) ⟨.load, 0xF265⟩ rfl rfl
  refine ⟨_, m'', executed, stores.inside 2 (by decide), stores.index, loaded, ?_, ?_, restores.index⟩
  · exact restores.inside 2 (by decide)
  · exact restores.outside 3 (by decide)

/-- A machine that waits for a key, with the index on the last byte of a memory that has no other
addresses. -/
def waitingAtEnd : Machine :=
  ((fresh .modern .fault (.constant 0)).reset [0xAF, 0xFF, 0xF0, 0x0A]).step.1.step.1

/-- A store of two registers is refused, but the machine does not wait any more. -/
theorem waitingAtEnd_changed : ¬ FailsUnchanged waitingAtEnd (decode 0xF155) := by
  intro unchanged
  have outcome : waitingAtEnd.waitingForKey = true ∧
      (waitingAtEnd.execute (decode 0xF155)).1.waitingForKey = false ∧
      (waitingAtEnd.execute (decode 0xF155)).2 = .error (.of (.memoryAccess 0x1000)) := by
    decide +kernel
  obtain ⟨waits, stopped, failed⟩ := outcome
  have same := congrArg Machine.waitingForKey (unchanged.eq_of_error failed)
  exact Bool.noConfusion (waits.symm.trans (same.symm.trans stopped))

end Machine

end Chip8
