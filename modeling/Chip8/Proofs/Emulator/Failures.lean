import Chip8.Proofs.Emulator.Snapshots
import Chip8.Proofs.Machine.Refusal

/-!
# When a step fails

Whether a step fails can be told before it is made, from the program counter, the word there, the
stack and the index, and so can the cause (`Machine.failure?`). Each part of a step has one equation
that says what it is refused for (`refusedFor`), the equation of the step is put together from
those, and all other steps are executed and counted.
-/

namespace Chip8

open Chip8.Debug

variable {α : Type}

/-- The cause that something was refused for, if it was refused. -/
def refusedFor : Except Fault α → Option Cause
  | .ok _ => none
  | .error f => some f.cause

/-! ## Blocks -/

namespace Policy

variable {p : Policy}

/-- Why a block of some bytes from an address on is refused: it reaches beyond the memory. The first
address is looked at before the last. -/
def refusal? (p : Policy) (start count : Nat) : Option Cause :=
  if p = fault ∧ 0 < count ∧ 0xFFF < start + (count - 1) then
    some (.memoryAccess ((if 0xFFF < start then start else start + (count - 1) : Nat) : Int))
  else none

theorem refusedFor_check (p : Policy) (start count : Nat) :
    refusedFor (p.check start count) = p.refusal? start count := by
  unfold check refusal?
  by_cases empty : count = 0
  · rw [if_pos (by omega), if_neg (by omega)]
    rfl
  · have last : (start : Int) + count - 1 = (start + (count - 1) : Nat) := by omega
    rw [if_neg (by omega), last]
    by_cases first : p.Allows start
    · rw [resolve_of_allows first]
      by_cases whole : p.Allows (start + (count - 1) : Nat)
      · have inside : ¬ (p = fault ∧ 0 < count ∧ 0xFFF < start + (count - 1)) := fun beyond =>
          not_allows_iff.mpr ⟨beyond.1, beyond.2.2⟩ whole
        rw [resolve_of_allows whole, if_neg inside]
        rfl
      · obtain ⟨refuses, beyond⟩ := not_allows_iff.mp whole
        rw [resolve_of_not_allows whole, if_pos ⟨refuses, Nat.pos_of_ne_zero empty, beyond⟩,
          if_neg fun far => not_allows_iff.mpr ⟨refuses, far⟩ first]
        rfl
    · obtain ⟨refuses, far⟩ := not_allows_iff.mp first
      rw [resolve_of_not_allows first,
        if_pos ⟨refuses, Nat.pos_of_ne_zero empty, Nat.lt_add_right _ far⟩, if_pos far]
      rfl

end Policy

namespace Machine

variable (m : Machine) (i : Instruction)

/-! ## What fails -/

/-- The word at the program counter, in a memory that repeats. -/
def wordHere : UInt16 :=
  wordOfBytes (m.memory.cells.get (Policy.cellOf m.pc.toNat))
    (m.memory.cells.get (Policy.cellOf (m.pc.toNat + 1)))

/-- Why the word at the program counter cannot be fetched. -/
def fetchFailure? : Option Cause :=
  if m.memory.policy = .fault ∧ 0xFFF ≤ m.pc.toNat then
    some (.memoryAccess (if 0xFFF < m.pc.toNat then m.pc.toNat else 0x1000))
  else none

/-- Why an instruction cannot be executed. -/
def effectFailure? : Option Cause :=
  match i.op with
  | .sys | .unknown => some .unknownOpcode
  | .ret => if m.stack.length = 0 then some .stackUnderflow else none
  | .call => if m.stack.length = 16 then some (.stackOverflow 16) else none
  | .digits => m.memory.policy.refusal? m.index.toNat 3
  | .store | .load => m.memory.policy.refusal? m.index.toNat (i.x + 1)
  | .draw => m.memory.policy.refusal? m.index.toNat i.n
  | _ => none

/-- Why the next step fails, if it does. -/
def failure? : Option Cause := m.fetchFailure?.or (m.effectFailure? (decode m.wordHere))

variable {m i}

/-! ## What is refused -/

theorem fetch_eq (m : Machine) : m.fetch =
    match m.fetchFailure? with
    | some cause => .error (.of cause)
    | none => .ok m.wordHere := by
  have next : (m.pc.toNat : Int) + 1 = (m.pc.toNat + 1 : Nat) := rfl
  unfold fetch Memory.readWord fetchFailure? wordHere
  rw [next]
  by_cases high : m.memory.policy.Allows m.pc.toNat
  · rw [Memory.read_of_allows high]
    by_cases low : m.memory.policy.Allows (m.pc.toNat + 1 : Nat)
    · rw [Memory.read_of_allows low, if_neg fun beyond =>
        Policy.not_allows_iff.mpr ⟨beyond.1, Nat.lt_succ_of_le beyond.2⟩ low]
      rfl
    · obtain ⟨refuses, beyond⟩ := Policy.not_allows_iff.mp low
      have inside : ¬ 0xFFF < m.pc.toNat := fun far =>
        Policy.not_allows_iff.mpr ⟨refuses, far⟩ high
      have last : m.pc.toNat + 1 = 0x1000 := by omega
      rw [Memory.read_of_not_allows low, if_pos ⟨refuses, by omega⟩, if_neg inside, last]
      rfl
  · obtain ⟨refuses, far⟩ := Policy.not_allows_iff.mp high
    rw [Memory.read_of_not_allows high, if_pos ⟨refuses, by omega⟩, if_pos far]
    rfl

theorem refusedFor_storeBlock (m : Machine) (bytes : List UInt8) :
    refusedFor (m.storeBlock bytes).2 =
      m.memory.policy.refusal? m.index.toNat bytes.length := by
  rw [← Policy.refusedFor_check]
  unfold storeBlock
  cases checked : m.memory.policy.check m.index.toNat bytes.length with
  | error f => rfl
  | ok =>
      dsimp only
      rw [Memory.writeBytes_of_check checked]

theorem refusedFor_loadBlock (m : Machine) (count : Nat) :
    refusedFor (m.loadBlock count) = m.memory.policy.refusal? m.index.toNat count := by
  rw [← Policy.refusedFor_check]
  unfold loadBlock
  cases checked : m.memory.policy.check m.index.toNat count with
  | error f => rfl
  | ok =>
      show refusedFor (m.memory.readBytes m.index.toNat count) = _
      rw [Memory.readBytes_of_check checked]
      rfl

theorem refusedFor_andThen (o : Outcome) (next : Machine → Machine) :
    refusedFor (o.andThen next).2 = refusedFor o.2 := by
  rcases o with ⟨m, f | ⟨⟩⟩
  · rfl
  · rfl

theorem refusedFor_storeRegisters (m : Machine) (x : Fin 16) :
    refusedFor (m.storeRegisters (x.toNat + 1)).2 =
      m.memory.policy.refusal? m.index.toNat (x + 1) := by
  have length : (m.v.toList.take (x.toNat + 1)).length = x + 1 := by
    rw [List.length_take, Vector.length_toList]
    exact Nat.min_eq_left x.isLt
  rw [storeRegisters, refusedFor_andThen, refusedFor_storeBlock, length]

theorem refusedFor_loadRegisters (m : Machine) (count : Nat) :
    refusedFor (m.loadRegisters count).2 = m.memory.policy.refusal? m.index.toNat count := by
  rw [← refusedFor_loadBlock]
  unfold loadRegisters
  cases m.loadBlock count <;> rfl

theorem refusedFor_drawSprite (m : Machine) (i : Instruction) :
    refusedFor (m.drawSprite i).2 = m.memory.policy.refusal? m.index.toNat i.n := by
  rw [← refusedFor_loadBlock]
  unfold drawSprite
  cases m.loadBlock i.n <;> rfl

theorem refusedFor_call {m : Machine} (depth : m.stack.length ≤ stackDepth) (address : UInt16) :
    refusedFor (m.call address).2 =
      if m.stack.length = 16 then some (.stackOverflow 16) else none := by
  unfold call
  by_cases full : m.stack.length = 16
  · rw [if_pos full, if_pos (by rw [full]; decide), full]
    rfl
  · rw [if_neg full, if_neg (by unfold stackDepth at *; omega)]
    rfl

theorem refusedFor_ret (m : Machine) :
    refusedFor m.ret.2 = if m.stack.length = 0 then some .stackUnderflow else none := by
  unfold ret
  cases m.stack with
  | nil => rfl
  | cons address rest => rfl

/-- What an instruction is refused for, operation by operation. -/
theorem refusedFor_effect {m : Machine} (depth : m.stack.length ≤ stackDepth) (i : Instruction) :
    refusedFor (m.effect i).2 = m.effectFailure? i := by
  cases hop : i.op <;> simp only [effect, effectFailure?, hop]
  case ret => exact refusedFor_ret m
  case call => exact refusedFor_call depth i.nnn
  case digits => exact refusedFor_storeBlock m _
  case store => exact refusedFor_storeRegisters m i.x
  case load => exact refusedFor_loadRegisters m _
  case draw => exact refusedFor_drawSprite m i
  -- the others are never refused, or always
  all_goals rfl

/-- **What a step fails for.** -/
theorem refusedFor_step {m : Machine} (depth : m.stack.length ≤ stackDepth) :
    refusedFor m.step.2 = m.failure? := by
  have fetched := fetch_eq m
  unfold failure?
  cases unfetched : m.fetchFailure? with
  | some cause =>
      rw [unfetched] at fetched
      rw [step_of_fetch_error fetched]
      rfl
  | none =>
      rw [unfetched] at fetched
      have refused : refusedFor (m.begun.effect (decode m.wordHere)).2 =
          m.effectFailure? (decode m.wordHere) := refusedFor_effect (m := m.begun) depth _
      rw [Option.none_or, ← refused]
      rcases executed : m.begun.effect (decode m.wordHere) with ⟨m', f | ⟨⟩⟩
      · rw [step_of_effect_error fetched executed]
        rfl
      · rw [step_of_effect_ok fetched executed]
        rfl

/-- A word that can be fetched is the one in the memory that repeats. -/
theorem eq_decode_wordHere (h : m.current? = some i) : i = decode m.wordHere := by
  obtain ⟨w, fetched, rfl⟩ := current?_eq_some_iff.mp h
  rw [fetch_eq] at fetched
  split at fetched <;> cases fetched
  rfl

/-- A step that does not fail executes the word at the program counter. -/
theorem step_of_failure_none {m : Machine} (depth : m.stack.length ≤ stackDepth)
    (none : m.failure? = none) : ∃ m', m.step = (m', .ok (decode m.wordHere)) := by
  rcases stepped : m.step with ⟨m', f | i⟩
  · have refused := refusedFor_step depth
    rw [stepped, none] at refused
    cases refused
  · obtain ⟨_, current, -, -⟩ := executed_of_step stepped
    exact ⟨m', by rw [eq_decode_wordHere current]⟩

end Machine

namespace Emulator

variable {e : Emulator}

/-- The next instruction is executed and counted, and is the word at the program counter. -/
structure Succeeds (e : Emulator) : Prop where
  reason : e.step.1.reason = .step ∨ e.step.1.reason = .keyWait
  cycles : e.step.1.cycles = 1
  address : e.step.1.address = some (e.machine.pc.toNat : Int)
  word : e.step.1.word = some (e.machine.wordHere.toNat : Int)
  counted : e.step.2.totalSteps = e.totalSteps + 1

/-- **When a step fails.** A step ends in a fault with some cause exactly if this is the cause that
can be told before. If there is none, the word at the program counter is executed. -/
theorem step_fails_exactly (r : Reachable e) :
    (∀ cause, (e.step.1.reason = .fault ∧ ∃ f, e.step.1.fault = some f ∧ f.cause = cause) ↔
        e.machine.failure? = some cause) ∧
      (e.machine.failure? = none → Succeeds e) := by
  have depth := r.inRange.depth
  have refused := Machine.refusedFor_step depth
  constructor
  · intro cause
    rw [← refused]
    rcases stepped : e.machine.step with ⟨m, f | i⟩
    · rw [step_of_error stepped]
      constructor
      · rintro ⟨-, _, same, rfl⟩
        cases same
        rfl
      · intro same
        exact ⟨rfl, f, rfl, Option.some.inj same⟩
    · rw [step_of_ok stepped]
      refine iff_of_false ?_ nofun
      rintro ⟨failed, -⟩
      exact stepEvent_reason_ne_fault _ _ _ failed
  · intro none
    obtain ⟨m, stepped⟩ := Machine.step_of_failure_none depth none
    have event := congrArg Prod.fst (step_of_ok stepped)
    have counted := congrArg (fun o => o.2.totalSteps) (step_of_ok stepped)
    refine ⟨?_, ?_, ?_, ?_, counted⟩ <;> rw [event]
    · cases m.waitingForKey with
      | true => exact Or.inr rfl
      | false => exact Or.inl rfl
    all_goals cases m.waitingForKey <;> rfl

/-- The program counter is on the last byte, where no whole word is. -/
def onLastByte : Emulator := (loaded .fault 700 [0xAF, 0xFE]).after (.setRegister .pc 0xFFF)

theorem onLastByte_fails_exactly :
    (onLastByte.step.1.reason = .fault ∧
        ∃ f, onLastByte.step.1.fault = some f ∧ f.cause = .memoryAccess 0x1000) ∧
      (storeBeyondEnd.step.1.reason = .fault ∧
        ∃ f, storeBeyondEnd.step.1.fault = some f ∧ f.cause = .memoryAccess 0x1000) ∧
      Succeeds (loaded .fault 700 [0xAF, 0xFE, 0xF2, 0x55]) := by
  have empty : Reachable onLastByte := (reachable_loaded (by decide) (by decide)).after _
  have start : Reachable (loaded .fault 700 [0xAF, 0xFE, 0xF2, 0x55]) :=
    reachable_loaded (by decide) (by decide)
  have store : Reachable storeBeyondEnd := start.after .step
  refine ⟨?_, ?_, ?_⟩
  · exact ((step_fails_exactly empty).1 _).mpr (by decide +kernel)
  · exact ((step_fails_exactly store).1 _).mpr (by decide +kernel)
  · exact (step_fails_exactly start).2 (by decide +kernel)

end Emulator

end Chip8
