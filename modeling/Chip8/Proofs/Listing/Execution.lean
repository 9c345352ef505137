import Chip8.Listing
import Chip8.Proofs.Emulator.Restart

/-!
# Listed words are executed words

A listing takes the bytes of a program two by two from front to back. A machine takes its words
from a memory that the program was copied to, wherever the program counter stands. Both come to the
same words at the same addresses (`fetch_of_listed`), and what the listing calls data or a routine of
the host processor is what the machine refuses as unknown.
-/

namespace Chip8

open Chip8.Debug

/-! ## Items -/

namespace ListingItem

theorem opcode_ofPair (address : Int) (high low : UInt8) :
    (ofPair address high low).opcode = (wordOfBytes high low).toNat := by
  rw [toNat_wordOfBytes]
  show (0 * 256 + high.toNat) * 256 + low.toNat = _
  rw [Nat.zero_mul, Nat.zero_add]

theorem opcode_ofByte (address : Int) (b : UInt8) : (ofByte address b).opcode = b.toNat :=
  Nat.zero_add _

end ListingItem

/-- The item that covers the bytes of a program from the given place on. -/
inductive Covers (address : Int) (program : List UInt8) (place : Nat) : ListingItem → Prop
  | pair (high low : UInt8) (first : program[place]? = some high)
      (second : program[place + 1]? = some low) :
      Covers address program place (.ofPair (address + place) high low)
  | last (b : UInt8) (here : program[place]? = some b) (ends : program.length = place + 1) :
      Covers address program place (.ofByte (address + place) b)

theorem Covers.start (address : Int) (high low : UInt8) (rest : List UInt8) :
    Covers address (high :: low :: rest) 0 (.ofPair address high low) := by
  have here : Covers address (high :: low :: rest) 0 (.ofPair (address + (0 : Nat)) high low) :=
    .pair high low rfl rfl
  rwa [Int.natCast_zero, Int.add_zero] at here

theorem Covers.single (address : Int) (b : UInt8) :
    Covers address [b] 0 (.ofByte address b) := by
  have here : Covers address [b] 0 (.ofByte (address + (0 : Nat)) b) := .last b rfl rfl
  rwa [Int.natCast_zero, Int.add_zero] at here

/-- An item of a program behind two more bytes. -/
theorem Covers.behind {address : Int} {program : List UInt8} {place : Nat} {item : ListingItem}
    (h : Covers (address + 2) program place item) (high low : UInt8) :
    Covers address (high :: low :: program) (place + 2) item := by
  have there : address + 2 + place = address + (place + 2 : Nat) := by omega
  cases h with
  | pair a b first second =>
      rw [there]
      exact .pair a b first second
  | last b here ends =>
      rw [there]
      refine .last b here ?_
      rw [List.length_cons, List.length_cons, ends]

/-- Items start at even places. -/
theorem covers_of_mem_listing {address : Int} {program : List UInt8} {item : ListingItem}
    (h : item ∈ listing address program) : ∃ k, Covers address program (2 * k) item := by
  fun_induction listing address program with
  | case1 address high low rest ih =>
      rcases List.mem_cons.mp h with rfl | later
      · exact ⟨0, .start address high low rest⟩
      · obtain ⟨k, covers⟩ := ih later
        exact ⟨k + 1, covers.behind high low⟩
  | case2 address b =>
      rw [List.mem_singleton.mp h]
      exact ⟨0, .single address b⟩
  | case3 => cases h

/-! ## Programs in memory -/

/-- Behind the glyphs a fresh memory is empty. -/
theorem Cells.get_fresh {i : Fin 4096} (h : programStart ≤ i.val) : Cells.fresh.get i = 0 := by
  have glyphsEnd : glyphStart + glyphs.length ≤ programStart := by decide
  rw [Cells.fresh, Cells.get_place, if_neg (by omega), Table.get_replicate]

/-- A program stands where programs are loaded, and behind it there are zeros. -/
theorem Cells.get_program (program : List UInt8) {place : Nat} (h : programStart + place < 4096) :
    (Cells.fresh.place programStart program).get ⟨programStart + place, h⟩ =
      program.getD place 0 := by
  rw [Cells.get_place]
  by_cases inside : place < program.length
  · rw [if_pos ⟨Nat.le_add_right _ _, Nat.add_lt_add_left inside _⟩]
    show program.getD (programStart + place - programStart) 0 = _
    rw [Nat.add_sub_cancel_left]
  · rw [if_neg fun between => inside (Nat.lt_of_add_lt_add_left between.2),
      Cells.get_fresh (Nat.le_add_right _ _),
      List.getD_eq_default _ _ (Nat.le_of_not_lt inside)]

namespace Emulator

/-- An emulator just loaded with a program, with the program counter at some place of it. -/
def standsAt (e : Emulator) (program : List UInt8) (address : Int) : Emulator :=
  { e with program := program }.reset.withMachine
    ({ e with program := program }.reset.machine.setPC (wordOf address))

theorem pc_standsAt (e : Emulator) (program : List UInt8) {place : Nat}
    (h : place < maxProgramSize) :
    (e.standsAt program (0x200 + place)).machine.pc.toNat = programStart + place := by
  have residue := toNat_wordOf (0x200 + place)
  unfold maxProgramSize programStart at *
  show (wordOf (0x200 + place)).toNat = _
  omega

/-- Two bytes of a program are fetched as one word. -/
theorem fetch_standsAt (e : Emulator) (program : List UInt8) {place : Nat}
    (h : place + 1 < maxProgramSize) :
    (e.standsAt program (0x200 + place)).machine.fetch =
      .ok (wordOfBytes (program.getD place 0) (program.getD (place + 1) 0)) := by
  have inside : programStart + place + 1 < 4096 := by
    unfold maxProgramSize at h
    omega
  rw [Machine.fetch, pc_standsAt e program (Nat.lt_of_succ_lt h),
    Memory.readWord_of_inside _ inside]
  have next : programStart + (place + 1) < 4096 := inside
  have high := Cells.get_program program (Nat.lt_of_succ_lt inside)
  have low := Cells.get_program program next
  rw [← high, ← low]
  rfl

variable {e : Emulator} {program : List UInt8} {item : ListingItem}

/-- **What is listed is fetched**: the word of two bytes, or the high byte of a word whose low byte
is zero. -/
theorem fetch_of_listed (fits : program.length ≤ maxProgramSize)
    (h : item ∈ listing 0x200 program) :
    ((e.standsAt program item.address).machine.pc.toNat : Int) = item.address ∧
      ((∃ high low, item = .ofPair item.address high low ∧
          (e.standsAt program item.address).machine.fetch = .ok (wordOfBytes high low)) ∨
        ∃ b, item = .ofByte item.address b ∧
          (e.standsAt program item.address).machine.fetch = .ok (wordOfBytes b 0)) := by
  obtain ⟨k, covers⟩ := covers_of_mem_listing h
  cases covers with
  | pair high low first second =>
      have room : 2 * k + 1 < maxProgramSize :=
        Nat.lt_of_lt_of_le (List.getElem?_eq_some_iff.mp second).1 fits
      have pc := pc_standsAt e program (Nat.lt_of_succ_lt room)
      have fetched := fetch_standsAt e program room
      rw [List.getD_eq_getElem?_getD, List.getD_eq_getElem?_getD, first, second] at fetched
      refine ⟨?_, Or.inl ⟨high, low, rfl, fetched⟩⟩
      show ((e.standsAt program (0x200 + (2 * k : Nat))).machine.pc.toNat : Int) = _
      rw [pc]
      rfl
  | last b here ends =>
      -- the length is odd, so the program does not fill the memory
      have room : 2 * k + 1 < maxProgramSize := by
        have size : maxProgramSize = 3584 := rfl
        omega
      have pc := pc_standsAt e program (Nat.lt_of_succ_lt room)
      have fetched := fetch_standsAt e program room
      have behind : program[2 * k + 1]? = none := List.getElem?_eq_none (Nat.le_of_eq ends)
      rw [List.getD_eq_getElem?_getD, List.getD_eq_getElem?_getD, here, behind] at fetched
      refine ⟨?_, Or.inr ⟨b, rfl, fetched⟩⟩
      show ((e.standsAt program (0x200 + (2 * k : Nat))).machine.pc.toNat : Int) = _
      rw [pc]
      rfl

/-! ## Steps -/

/-- Whether the step succeeds or not, its event or the machine tells the word that was fetched; and
it fails for an unknown word exactly if the word has no meaning. -/
theorem step_of_fetched {w : UInt16} (h : e.machine.fetch = .ok w) :
    (e.step.1.reason = .fault → e.step.1.word = some (w.toNat : Int)) ∧
      (e.step.1.reason ≠ .fault →
        e.step.2.machine.lastInstruction.map Instruction.word = some w) ∧
      ((∃ f, e.step.1.fault = some f ∧ f.cause = .unknownOpcode) ↔
        opOf w = .sys ∨ opOf w = .unknown) := by
  rcases he : e.machine.begun.effect (decode w) with ⟨m, g | ⟨⟩⟩
  · have failed := Machine.step_of_effect_error h he
    have refused := (Machine.effect_refused he).2
    have openFor := refused.refuses.openFor
    rw [decode_word] at openFor
    rw [openFor.attach] at failed
    rw [step_of_error failed]
    refine ⟨fun _ => rfl, fun went => absurd rfl went, ?_⟩
    rw [← decode_op w, ← refused.unknown_iff]
    exact ⟨fun ⟨_, same, unknown⟩ => by cases same; exact unknown, fun unknown => ⟨_, rfl, unknown⟩⟩
  · have went := Machine.step_of_effect_ok h he
    rw [step_of_ok went]
    have noFault : (stepEvent e.machine.pc (decode w)
        { m with lastInstruction := some (decode w) }.waitingForKey).fault = none := by
      cases m.waitingForKey <;> rfl
    refine ⟨fun failed => absurd failed (stepEvent_reason_ne_fault _ _ _), fun _ => rfl, ?_⟩
    refine iff_of_false (fun ⟨f, fault, _⟩ => ?_) fun meaningless => ?_
    · rw [noFault] at fault
      cases fault
    · -- a word without a meaning is refused
      rcases meaningless with op | op <;> rw [Machine.effect, decode_op, op] at he <;> cases he

end Emulator

/-- Only words without a meaning are listed as data, and only calls of the host processor as
such. -/
theorem mnemonic_meaningless_iff (w : UInt16) :
    (decode w).assembly.mnemonic = "DW" ∨ (decode w).assembly.mnemonic = "SYS" ↔
      opOf w = .sys ∨ opOf w = .unknown := by
  rw [Instruction.assembly, decode_op]
  cases opOf w <;> simp [Assembly.dataWord]

namespace Emulator

variable {e : Emulator} {program : List UInt8} {item : ListingItem}

/-- What an emulator does when it stands at an item of a listing: it fetches what is listed, and
the step it makes then tells the same word, and fails as the listing has it. -/
structure Executes (e : Emulator) (item : ListingItem) : Prop where
  pc : (e.machine.pc.toNat : Int) = item.address
  fetches : ∃ w, e.machine.fetch = .ok w ∧
    (item.size = 2 ∧ w.toNat = item.opcode ∨ item.size = 1 ∧ w.toNat = 256 * item.opcode)
  fails : item.size = 2 → e.step.1.reason = .fault → e.step.1.word = some (item.opcode : Int)
  succeeds : item.size = 2 → e.step.1.reason ≠ .fault →
    e.step.2.machine.lastInstruction.map (fun i => i.word.toNat) = some item.opcode
  unknown : item.size = 2 →
    ((∃ f, e.step.1.fault = some f ∧ f.cause = .unknownOpcode) ↔
      item.assembly.mnemonic = "DW" ∨ item.assembly.mnemonic = "SYS")

theorem executes_pair {address : Int} {high low : UInt8} (pc : (e.machine.pc.toNat : Int) = address)
    (h : e.machine.fetch = .ok (wordOfBytes high low)) :
    Executes e (.ofPair address high low) := by
  obtain ⟨fails, succeeds, unknown⟩ := step_of_fetched h
  have opcode := ListingItem.opcode_ofPair address high low
  refine ⟨pc, ⟨_, h, Or.inl ⟨rfl, opcode.symm⟩⟩, fun _ failed => ?_, fun _ went => ?_, fun _ => ?_⟩
  · rw [opcode]
    exact fails failed
  · have told := congrArg (Option.map UInt16.toNat) (succeeds went)
    rw [Option.map_map] at told
    rw [opcode]
    exact told
  · rw [unknown]
    exact (mnemonic_meaningless_iff _).symm

theorem executes_byte {address : Int} {b : UInt8} (pc : (e.machine.pc.toNat : Int) = address)
    (h : e.machine.fetch = .ok (wordOfBytes b 0)) : Executes e (.ofByte address b) := by
  have single : (ListingItem.ofByte address b).size ≠ 2 := by
    show 1 ≠ 2
    decide
  refine ⟨pc, ⟨_, h, Or.inr ⟨rfl, ?_⟩⟩, fun two => absurd two single, fun two => absurd two single,
    fun two => absurd two single⟩
  rw [ListingItem.opcode_ofByte, toNat_wordOfBytes, Nat.mul_comm]
  rfl

/-- **Listed words are executed words.** Whatever was done with an emulator before, once it has
loaded a program that fits and the program counter is set to an item of the program's listing, it
fetches the bytes of that item, with a zero behind a single one. The step it makes then tells the
word of the item, as the last instruction or in the event of its fault, and it fails for an unknown
word exactly where data or a call of the host processor is listed. -/
theorem listed_is_executed (e : Emulator) (fits : program.length ≤ 3584)
    (listed : item ∈ listing 0x200 program) :
    ∃ loaded s, e.loadProgram program = .ok loaded ∧
      loaded.setRegister .pc item.address = .ok s ∧ Executes s item := by
  refine ⟨_, _, loadProgram_of_fits fits, rfl, ?_⟩
  obtain ⟨pc, ⟨high, low, pair, fetched⟩ | ⟨b, byte, fetched⟩⟩ := fetch_of_listed fits listed
  · rw [pair]
    exact executes_pair pc fetched
  · rw [byte]
    exact executes_byte pc fetched

/-- A call of the host processor between an instruction and a single byte. -/
def callsHost : List UInt8 := [0x60, 0x05, 0x01, 0x23, 0xF0]

theorem callsHost_executed :
    ∃ loaded s, interrupted.loadProgram callsHost = .ok loaded ∧
      loaded.setRegister .pc 0x202 = .ok s ∧ Executes s (.ofPair 0x202 0x01 0x23) ∧
      ∃ f, s.step.1.fault = some f ∧ f.cause = .unknownOpcode := by
  have fits : callsHost.length ≤ 3584 := by decide
  have listed : ListingItem.ofPair 0x202 0x01 0x23 ∈ listing 0x200 callsHost :=
    List.mem_cons_of_mem _ List.mem_cons_self
  obtain ⟨loaded, s, loads, placed, executes⟩ := listed_is_executed interrupted fits listed
  exact ⟨loaded, s, loads, placed, executes, (executes.unknown rfl).mpr (Or.inr rfl)⟩

end Emulator

end Chip8
