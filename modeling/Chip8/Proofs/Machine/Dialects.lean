import Mathlib.Data.List.Basic
import Mathlib.Tactic.MkIffOfInductiveProp
import Chip8.Proofs.Machine.Alike
import Chip8.Proofs.Screen.Pixels

/-!
# Machines under two dialects

Five choices make a dialect, and each belongs to a few operations. Two dialects disagree on an
instruction only if they choose differently for it and the machine is in a state in which the choice
matters (`Disagree`): registers differ, a bit of a sprite lies off the screen, or the index leaves
the memory. All other instructions do the same on two machines that differ in the dialect alone, and
leave two such machines behind. So do instructions that are refused, whatever the dialects choose.
-/

namespace Chip8

namespace Machine

/-! ## Where dialects disagree -/

/-- Two dialects disagree on an instruction for a machine. -/
@[mk_iff]
inductive Disagree (d d' : Dialect) (m : Machine) (i : Instruction) : Prop
  | shift (op : i.op = .shr ∨ i.op = .shl) (choice : d.shiftsVY ≠ d'.shiftsVY)
      (matters : m.v.get i.x ≠ m.v.get i.y)
  | block (op : i.op = .store ∨ i.op = .load) (choice : d.movesIndex ≠ d'.movesIndex)
  | jump (op : i.op = .jpOffset) (choice : d.jumpsByVX ≠ d'.jumpsByVX)
      (matters : m.v.get first ≠ m.v.get i.x)
  | sprite (op : i.op = .draw) (choice : d.clipsSprites ≠ d'.clipsSprites)
      (matters : ∃ rows ∈ (m.loadBlock i.n).toOption,
        Screen.Overhangs 64 32 (m.v.get i.x).toNat (m.v.get i.y).toNat rows)
  | index (op : i.op = .addIndex) (choice : d.flagsIndexOverflow ≠ d'.flagsIndexOverflow)
      (matters : 0xFFF < m.index.toNat + (m.v.get i.x).toNat)

instance (d d' : Dialect) (m : Machine) (i : Instruction) : Decidable (Disagree d d' m i) :=
  decidable_of_iff _ (disagree_iff d d' m i).symm

/-- The machine under another dialect, with another source of random bytes. -/
def under (m : Machine) (d : Dialect) (random : Random.Source) : Machine :=
  { m with dialect := d, random := random }

def Outcome.under (o : Outcome) (d : Dialect) (random : Random.Source) : Outcome :=
  (Machine.under o.1 d random, o.2)

variable {m : Machine} {d : Dialect} {random : Random.Source} {i : Instruction}

section

variable (m d random)

/-! ## Operations without a choice -/

theorem skipIf_under (condition : Bool) :
    (m.under d random).skipIf condition = (m.skipIf condition).under d random := by
  unfold skipIf
  split
  · rfl
  · rfl

theorem waitKey_under (x : Fin 16) :
    (m.under d random).waitKey x = (m.waitKey x).under d random := by
  have keypad : (m.under d random).keypad = m.keypad := rfl
  unfold waitKey
  rw [keypad]
  cases m.keypad.first? with
  | none => rfl
  | some key => rfl

theorem call_under (address : UInt16) :
    (m.under d random).call address = (m.call address).under d random := by
  have stack : (m.under d random).stack = m.stack := rfl
  unfold call
  rw [stack]
  split
  · rfl
  · rfl

theorem ret_under : (m.under d random).ret = m.ret.under d random := by
  have stack : (m.under d random).stack = m.stack := rfl
  unfold ret
  rw [stack]
  cases m.stack with
  | nil => rfl
  | cons address rest => rfl

theorem storeBlock_under (bytes : List UInt8) :
    (m.under d random).storeBlock bytes = (m.storeBlock bytes).under d random := by
  have memory : (m.under d random).memory = m.memory := rfl
  have index : (m.under d random).index = m.index := rfl
  unfold storeBlock
  rw [memory, index]
  cases m.memory.policy.check m.index.toNat bytes.length with
  | error f => rfl
  | ok => rfl

end

/-! ## Operations with a choice -/

theorem shiftSource_under (agree : ¬ Disagree m.dialect d m i) (op : i.op = .shr ∨ i.op = .shl) :
    (m.under d random).shiftSource i = m.shiftSource i := by
  show (if d.shiftsVY then m.v.get i.y else m.v.get i.x) = _
  unfold shiftSource
  by_cases choice : m.dialect.shiftsVY = d.shiftsVY
  · rw [choice]
  · have same : m.v.get i.x = m.v.get i.y := by
      by_contra matters
      exact agree (.shift op choice matters)
    rw [same, ite_self, ite_self]

theorem jumpTarget_under (agree : ¬ Disagree m.dialect d m i) (op : i.op = .jpOffset) :
    (m.under d random).jumpTarget i = m.jumpTarget i := by
  show i.nnn + (if d.jumpsByVX then m.v.get i.x else m.v.get first).toUInt16 = _
  unfold jumpTarget
  by_cases choice : m.dialect.jumpsByVX = d.jumpsByVX
  · rw [choice]
  · have same : m.v.get first = m.v.get i.x := by
      by_contra matters
      exact agree (.jump op choice matters)
    rw [same, ite_self, ite_self]

theorem passBlock_under (same : m.dialect.movesIndex = d.movesIndex) (count : Nat) :
    (m.under d random).passBlock count = (m.passBlock count).under d random := by
  have choice : (m.under d random).dialect.movesIndex = m.dialect.movesIndex := same.symm
  unfold passBlock
  rw [choice]
  split
  · rfl
  · rfl

theorem storeRegisters_under {count : Nat}
    (choice : (m.storeRegisters count).2 = .ok () → m.dialect.movesIndex = d.movesIndex) :
    (m.under d random).storeRegisters count = (m.storeRegisters count).under d random := by
  have v : (m.under d random).v = m.v := rfl
  obtain ⟨memory, stored⟩ := storeBlock_frame m (m.v.toList.take count)
  unfold storeRegisters at choice ⊢
  rw [v, storeBlock_under]
  rcases hs : m.storeBlock (m.v.toList.take count) with ⟨r, f | ⟨⟩⟩ <;> rw [hs] at stored choice
  · rfl
  · have same : r.dialect.movesIndex = d.movesIndex := by
      rw [show r = { m with memory := memory } from stored]
      exact choice rfl
    exact congrArg done (passBlock_under same count)

theorem loadRegisters_under {count : Nat}
    (choice : (m.loadRegisters count).2 = .ok () → m.dialect.movesIndex = d.movesIndex) :
    (m.under d random).loadRegisters count = (m.loadRegisters count).under d random := by
  have block : (m.under d random).loadBlock count = m.loadBlock count := rfl
  unfold loadRegisters at choice ⊢
  rw [block]
  cases loaded : m.loadBlock count with
  | error f => rfl
  | ok bytes =>
      rw [loaded] at choice
      exact congrArg done (passBlock_under (m := m.setRegisters bytes) (choice rfl) count)

theorem drawSprite_under (agree : (m.drawSprite i).2 = .ok () → ¬ Disagree m.dialect d m i)
    (op : i.op = .draw) :
    (m.under d random).drawSprite i = (m.drawSprite i).under d random := by
  have block : (m.under d random).loadBlock i.n = m.loadBlock i.n := rfl
  unfold drawSprite at agree ⊢
  rw [block]
  cases loaded : m.loadBlock i.n with
  | error f => rfl
  | ok rows =>
      rw [loaded] at agree
      have same : m.screen.draw (m.v.get i.x).toNat (m.v.get i.y).toNat rows d.clipsSprites =
          m.screen.draw (m.v.get i.x).toNat (m.v.get i.y).toNat rows m.dialect.clipsSprites := by
        by_cases choice : m.dialect.clipsSprites = d.clipsSprites
        · rw [choice]
        · refine Screen.draw_of_not_overhangs (fun off => agree rfl ?_) _ _ _
          exact .sprite op choice ⟨rows, by rw [loaded]; rfl, off⟩
      exact congrArg (fun drawn => done ({ m.under d random with screen := drawn.1 }.setFlag drawn.2))
        same

theorem addToIndex_under (agree : ¬ Disagree m.dialect d m i) (op : i.op = .addIndex) :
    (m.under d random).addToIndex (m.v.get i.x) = (m.addToIndex (m.v.get i.x)).under d random := by
  have index : (m.under d random).index = m.index := rfl
  have flags : (d.flagsIndexOverflow ∧ 0xFFF < m.index.toNat + (m.v.get i.x).toNat) ↔
      m.dialect.flagsIndexOverflow ∧ 0xFFF < m.index.toNat + (m.v.get i.x).toNat := by
    refine and_congr_left fun matters => ?_
    have same : m.dialect.flagsIndexOverflow = d.flagsIndexOverflow := by
      by_contra choice
      exact agree (.index op choice matters)
    rw [same]
  unfold addToIndex
  rw [index]
  dsimp only
  show (if d.flagsIndexOverflow ∧ _ then _ else _ : Machine).setIndex _ = _
  simp only [flags]
  split
  · rfl
  · rfl

/-! ## Instructions -/

/-- Two machines that differ in the dialect, which is `d` for the second one, and in nothing else but
the source of the random bytes; the bytes to come are the same. -/
def SameButDialect (d : Dialect) (m m' : Machine) : Prop :=
  ∃ random, m.random.SameBytes random ∧ m' = m.under d random

/-- Outcomes on such machines: the same answer, and such machines again. -/
def SameOutcome {α : Type} (d : Dialect) (o o' : Machine × Except Fault α) : Prop :=
  o'.2 = o.2 ∧ SameButDialect d o.1 o'.1

theorem sameOutcome_random (same : m.random.SameBytes random) (x : Fin 16) (mask : UInt8) :
    SameOutcome d (done ({ m with random := m.random.next.2 }.setV x (m.random.next.1 &&& mask)))
      (done ({ m.under d random with random := random.next.2 }.setV x (random.next.1 &&& mask))) := by
  rw [same.next.1]
  exact ⟨rfl, random.next.2, same.next.2, rfl⟩

/-- **An instruction on which the dialects do not disagree does the same under both**, and so does
one that is refused. -/
theorem sameOutcome_effect (same : m.random.SameBytes random)
    (agree : (m.effect i).2 = .ok () → ¬ Disagree m.dialect d m i) :
    SameOutcome d (m.effect i) ((m.under d random).effect i) := by
  by_cases random' : i.op = .rnd
  · rw [effect, effect, random']
    exact sameOutcome_random same i.x i.nn
  · have bytes : (m.effect i).1.random.SameBytes random := by
      rw [(effect_footprint m i).random random']
      exact same
    suffices h : (m.under d random).effect i = (m.effect i).under d random by
      rw [h]
      exact ⟨rfl, random, bytes, rfl⟩
    have skip (condition : Bool) :
        done ((m.under d random).skipIf condition) = (done (m.skipIf condition)).under d random :=
      congrArg done (skipIf_under m d random condition)
    cases hop : i.op <;> simp only [effect, hop] at agree ⊢
    case rnd => exact absurd hop random'
    case ret => exact ret_under m d random
    case call => exact call_under m d random i.nnn
    case jpOffset =>
      rw [jumpTarget_under (agree rfl) hop]
      rfl
    case skipEqByte | skipNeByte | skipEqReg | skipNeReg | skipKey | skipNoKey => exact skip _
    case shr =>
      rw [shiftSource_under (agree rfl) (Or.inl hop)]
      rfl
    case shl =>
      rw [shiftSource_under (agree rfl) (Or.inr hop)]
      rfl
    case addIndex => exact congrArg done (addToIndex_under (agree rfl) hop)
    case digits => exact storeBlock_under m d random (decimalDigits (m.v.get i.x))
    case store =>
      apply storeRegisters_under
      intro stored
      by_contra choice
      exact agree stored (.block (Or.inl hop) choice)
    case load =>
      apply loadRegisters_under
      intro loaded
      by_contra choice
      exact agree loaded (.block (Or.inr hop) choice)
    case draw => exact drawSprite_under agree hop
    case waitKey => exact congrArg done (waitKey_under m d random i.x)
    -- what is left writes to registers, timers or the screen, or is refused
    all_goals rfl

/-! ## Steps -/

/-- The next step executes an instruction on which another dialect disagrees. -/
def Disputed (m : Machine) (d : Dialect) : Prop :=
  ∃ i ∈ m.step.2.toOption, Disagree m.dialect d m i

instance (m : Machine) (d : Dialect) : Decidable (m.Disputed d) :=
  inferInstanceAs (Decidable (∃ i ∈ m.step.2.toOption, Disagree m.dialect d m i))

theorem SameButDialect.setPC {m' : Machine} (same : SameButDialect d m m') (w : UInt16) :
    SameButDialect d { m with pc := w } { m' with pc := w } := by
  obtain ⟨random, bytes, rfl⟩ := same
  exact ⟨random, bytes, rfl⟩

theorem SameButDialect.remember {m' : Machine} (same : SameButDialect d m m')
    (last : Option Instruction) :
    SameButDialect d { m with lastInstruction := last } { m' with lastInstruction := last } := by
  obtain ⟨random, bytes, rfl⟩ := same
  exact ⟨random, bytes, rfl⟩

/-- **A step that is not disputed is the same step under another dialect.** -/
theorem SameButDialect.step {m' : Machine} (same : SameButDialect d m m')
    (agree : ¬ m.Disputed d) : SameOutcome d m.step m'.step := by
  obtain ⟨random, bytes, rfl⟩ := id same
  have fetched : (m.under d random).fetch = m.fetch := rfl
  cases hf : m.fetch with
  | error f =>
      rw [step_of_fetch_error hf, step_of_fetch_error (fetched.trans hf)]
      exact ⟨rfl, same⟩
  | ok w =>
      have settled : (m.begun.effect (decode w)).2 = .ok () →
          ¬ Disagree m.dialect d m.begun (decode w) := by
        intro executed disagree
        have began : m.begun.effect (decode w) = ((m.begun.effect (decode w)).1, .ok ()) := by
          rw [← executed]
        refine agree ⟨decode w, ?_, ?_⟩
        · rw [step_of_effect_ok hf began]
          rfl
        · -- a fetch changes nothing that the dialects can disagree about
          rw [disagree_iff] at disagree ⊢
          exact disagree
      have effects : SameOutcome d (m.begun.effect (decode w))
          ((m.under d random).begun.effect (decode w)) := sameOutcome_effect bytes settled
      rcases he : m.begun.effect (decode w) with ⟨r, x⟩
      rcases he' : (m.under d random).begun.effect (decode w) with ⟨r', x'⟩
      rw [he, he'] at effects
      obtain ⟨answer, after⟩ := effects
      cases answer
      cases x with
      | error f =>
          rw [step_of_effect_error hf he, step_of_effect_error (fetched.trans hf) he']
          exact ⟨rfl, after.setPC m.pc⟩
      | ok =>
          rw [step_of_effect_ok hf he, step_of_effect_ok (fetched.trans hf) he']
          exact ⟨rfl, after.remember _⟩

end Machine

end Chip8
