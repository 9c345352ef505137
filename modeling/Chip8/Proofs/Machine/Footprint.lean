import Chip8.Machine.Execute

/-!
# What an instruction touches

Registers and the program counter are everybody's. Every other part of a machine belongs to a few
operations: the stack to calls and returns, each timer to the operation that sets it, and so on.
`Footprint` says this once for all operations, refused or not; what a step does to one part is read
off it by looking at the operations that own the part.
-/

namespace Chip8.Machine

/-! ## What the parts of an instruction leave alone -/

theorem skipIf_frame (m : Machine) (condition : Bool) :
    ∃ pc, m.skipIf condition = { m with pc := pc } := by
  unfold skipIf
  split
  · exact ⟨_, rfl⟩
  · exact ⟨_, rfl⟩

theorem passBlock_frame (m : Machine) (count : Nat) :
    ∃ index, m.passBlock count = { m with index := index } := by
  unfold passBlock
  split
  · exact ⟨_, rfl⟩
  · exact ⟨_, rfl⟩

theorem addToIndex_frame (m : Machine) (b : UInt8) :
    ∃ v index, m.addToIndex b = { m with v := v, index := index } := by
  unfold addToIndex
  dsimp only
  split
  · exact ⟨_, _, rfl⟩
  · exact ⟨_, _, rfl⟩

theorem waitKey_frame (m : Machine) (x : Fin 16) :
    ∃ v pc waiting, m.waitKey x = { m with v := v, pc := pc, waitingForKey := waiting } := by
  unfold waitKey
  split
  · exact ⟨_, _, _, rfl⟩
  · exact ⟨_, _, _, rfl⟩

theorem storeBlock_frame (m : Machine) (bytes : List UInt8) :
    ∃ memory, (m.storeBlock bytes).1 = { m with memory := memory } := by
  unfold storeBlock
  split
  · exact ⟨_, rfl⟩
  · exact ⟨_, rfl⟩

theorem storeRegisters_frame (m : Machine) (count : Nat) :
    ∃ memory index, (m.storeRegisters count).1 = { m with memory := memory, index := index } := by
  obtain ⟨memory, stored⟩ := storeBlock_frame m (m.v.toList.take count)
  unfold storeRegisters
  rcases hs : m.storeBlock (m.v.toList.take count) with ⟨m', _ | ⟨⟩⟩ <;> rw [hs] at stored
  · exact ⟨memory, m.index, stored⟩
  · obtain ⟨index, passed⟩ := passBlock_frame m' count
    refine ⟨memory, index, passed.trans ?_⟩
    rw [show m' = { m with memory := memory } from stored]

theorem loadRegisters_frame (m : Machine) (count : Nat) :
    ∃ v index, (m.loadRegisters count).1 = { m with v := v, index := index } := by
  unfold loadRegisters
  split
  · exact ⟨_, _, rfl⟩
  · rename_i bytes _
    obtain ⟨index, passed⟩ := passBlock_frame (m.setRegisters bytes) count
    exact ⟨_, index, passed⟩

theorem drawSprite_frame (m : Machine) (i : Instruction) :
    ∃ v screen, (m.drawSprite i).1 = { m with v := v, screen := screen } := by
  unfold drawSprite
  split
  · exact ⟨_, _, rfl⟩
  · exact ⟨_, _, rfl⟩

/-! ## Footprints -/

variable {m m' : Machine} {i : Instruction}

/-- What an operation changed, at most. -/
structure Footprint (op : Op) (m m' : Machine) : Prop where
  dialect : m'.dialect = m.dialect
  keypad : m'.keypad = m.keypad
  last : m'.lastInstruction = m.lastInstruction
  waiting : op ≠ .waitKey → m'.waitingForKey = m.waitingForKey
  stack : op ≠ .call → op ≠ .ret → m'.stack = m.stack
  memory : op ≠ .digits → op ≠ .store → m'.memory = m.memory
  screen : op ≠ .cls → op ≠ .draw → m'.screen = m.screen
  timers : op ≠ .setDelay → op ≠ .setSound → m'.timers = m.timers
  random : op ≠ .rnd → m'.random = m.random

namespace Footprint

/-- Registers and program counter are within every footprint. -/
theorem registers (op : Op) (m : Machine) (v : Vector UInt8 16) (index pc : UInt16) :
    Footprint op m { m with v := v, index := index, pc := pc } :=
  ⟨rfl, rfl, rfl, fun _ => rfl, fun _ _ => rfl, fun _ _ => rfl, fun _ _ => rfl, fun _ _ => rfl,
    fun _ => rfl⟩

theorem call (m : Machine) (address : UInt16) : Footprint .call m (m.call address).1 := by
  unfold Machine.call
  split
  · exact registers _ m _ _ _
  · exact { registers .call m m.v m.index m.pc with
      stack := fun other => absurd rfl other }

theorem ret (m : Machine) : Footprint .ret m m.ret.1 := by
  unfold Machine.ret
  split
  · exact registers _ m _ _ _
  · exact { registers .ret m m.v m.index m.pc with
      stack := fun _ other => absurd rfl other }

theorem memory_index {op : Op} (owns : op = .digits ∨ op = .store) (m : Machine)
    (memory : Memory) (index : UInt16) :
    Footprint op m { m with memory := memory, index := index } :=
  { registers op m m.v m.index m.pc with
    memory := fun notDigits notStore => by
      rcases owns with rfl | rfl
      · exact absurd rfl notDigits
      · exact absurd rfl notStore }

theorem screen_flag {op : Op} (owns : op = .cls ∨ op = .draw) (m : Machine)
    (screen : Screen 64 32) (v : Vector UInt8 16) :
    Footprint op m { m with screen := screen, v := v } :=
  { registers op m m.v m.index m.pc with
    screen := fun notCls notDraw => by
      rcases owns with rfl | rfl
      · exact absurd rfl notCls
      · exact absurd rfl notDraw }

theorem timers_only {op : Op} (owns : op = .setDelay ∨ op = .setSound) (m : Machine)
    (timers : Timers) : Footprint op m { m with timers := timers } :=
  { registers op m m.v m.index m.pc with
    timers := fun notDelay notSound => by
      rcases owns with rfl | rfl
      · exact absurd rfl notDelay
      · exact absurd rfl notSound }

theorem waiting_register (m : Machine) (v : Vector UInt8 16) (pc : UInt16) (waiting : Bool) :
    Footprint .waitKey m { m with v := v, pc := pc, waitingForKey := waiting } :=
  { registers .waitKey m v m.index pc with
    waiting := fun other => absurd rfl other }

theorem random_register (m : Machine) (random : Random.Source) (v : Vector UInt8 16) :
    Footprint .rnd m { m with random := random, v := v } :=
  { registers .rnd m m.v m.index m.pc with
    random := fun other => absurd rfl other }

end Footprint

/-- Refused or not, an instruction keeps to the footprint of its operation. -/
theorem effect_footprint (m : Machine) (i : Instruction) :
    Footprint i.op m (m.effect i).1 := by
  have skip (op : Op) (condition : Bool) : Footprint op m (m.skipIf condition) := by
    obtain ⟨pc, skipped⟩ := skipIf_frame m condition
    exact skipped ▸ Footprint.registers op m m.v m.index pc
  cases hop : i.op <;> simp only [effect, hop]
  case call => exact Footprint.call m _
  case ret => exact Footprint.ret m
  case cls => exact Footprint.screen_flag (Or.inl rfl) m _ m.v
  case setDelay => exact Footprint.timers_only (Or.inl rfl) m _
  case setSound => exact Footprint.timers_only (Or.inr rfl) m _
  case rnd => exact Footprint.random_register m _ _
  case skipEqByte | skipNeByte | skipEqReg | skipNeReg | skipKey | skipNoKey => exact skip _ _
  case addIndex =>
    obtain ⟨v, index, added⟩ := addToIndex_frame m (m.v.get i.x)
    show Footprint _ m (m.addToIndex (m.v.get i.x))
    rw [added]
    exact Footprint.registers _ m v index m.pc
  case waitKey =>
    obtain ⟨v, pc, waiting, waited⟩ := waitKey_frame m i.x
    show Footprint _ m (m.waitKey i.x)
    rw [waited]
    exact Footprint.waiting_register m v pc waiting
  case digits =>
    obtain ⟨memory, stored⟩ := storeBlock_frame m (decimalDigits (m.v.get i.x))
    rw [stored]
    exact Footprint.memory_index (Or.inl rfl) m memory m.index
  case store =>
    obtain ⟨memory, index, stored⟩ := storeRegisters_frame m (i.x.toNat + 1)
    rw [stored]
    exact Footprint.memory_index (Or.inr rfl) m memory index
  case load =>
    obtain ⟨v, index, loaded⟩ := loadRegisters_frame m (i.x.toNat + 1)
    rw [loaded]
    exact Footprint.registers _ m v index m.pc
  case draw =>
    obtain ⟨v, screen, drawn⟩ := drawSprite_frame m i
    rw [drawn]
    exact Footprint.screen_flag (Or.inr rfl) m screen v
  -- what is left writes registers or the program counter, or is refused
  all_goals exact Footprint.registers _ m _ _ _

/-! ## Steps -/

/-- The instruction at the program counter, if it can be fetched. -/
def current? (m : Machine) : Option Instruction := m.fetch.toOption.map decode

theorem current?_eq_some_iff : m.current? = some i ↔ ∃ w, m.fetch = .ok w ∧ decode w = i := by
  unfold current?
  cases m.fetch with
  | error f => simp [Except.toOption]
  | ok w => simp [Except.toOption]

theorem step_of_none (h : m.current? = none) : m.step.1 = m := by
  cases hf : m.fetch with
  | error f => rw [step_of_fetch_error hf]
  | ok w =>
      rw [current?, hf] at h
      cases h

/-- A step adds to the effect of its instruction where to go on, and which instruction it was. -/
theorem step_frame (h : m.current? = some i) :
    ∃ pc last, m.step.1 =
      { (m.begun.effect i).1 with pc := pc, lastInstruction := last } := by
  obtain ⟨w, hf, rfl⟩ := current?_eq_some_iff.mp h
  rcases he : m.begun.effect (decode w) with ⟨m', f | ⟨⟩⟩
  · rw [step_of_effect_error hf he]
    exact ⟨_, _, rfl⟩
  · rw [step_of_effect_ok hf he]
    exact ⟨_, _, rfl⟩

theorem step_of_executed (h : m.current? = some i) (e : m.begun.effect i = (m', .ok ())) :
    m.step = ({ m' with lastInstruction := some i }, .ok i) := by
  obtain ⟨w, hf, rfl⟩ := current?_eq_some_iff.mp h
  exact step_of_effect_ok hf e

theorem executed_of_step (h : m.step = (m', .ok i)) :
    ∃ r, m.current? = some i ∧ m.begun.effect i = (r, .ok ()) ∧
      m' = { r with lastInstruction := some i } := by
  cases hf : m.fetch with
  | error f =>
      rw [step_of_fetch_error hf] at h
      cases h
  | ok w =>
      rcases he : m.begun.effect (decode w) with ⟨r, f | ⟨⟩⟩
      · rw [step_of_effect_error hf he] at h
        cases h
      · rw [step_of_effect_ok hf he] at h
        cases h
        exact ⟨r, current?_eq_some_iff.mpr ⟨w, hf, rfl⟩, he, rfl⟩

theorem step_footprint (h : m.current? = some i) :
    Footprint i.op m.begun { m.step.1 with lastInstruction := m.lastInstruction } := by
  obtain ⟨pc, last, stepped⟩ := step_frame h
  rw [stepped]
  exact { effect_footprint m.begun i with last := rfl }

end Chip8.Machine
