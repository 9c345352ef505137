import Chip8.Proofs.Machine.Footprint
import Chip8.Proofs.Machine.Refusal

/-!
# Instructions without timers

Three operations have to do with timers: one reads the delay timer and two set a timer. All the
others do the same whatever the timers are, and leave them as they are. So do fetches, and
instructions that are refused. For such an instruction it makes no difference whether a tick comes
before it or behind it (`tick_step`).
-/

namespace Chip8

/-- The operation reads or sets a timer. -/
def Op.usesTimers : Op → Bool
  | .getDelay | .setDelay | .setSound => true
  | _ => false

namespace Machine

def withTimers (m : Machine) (t : Timers) : Machine := { m with timers := t }

def Outcome.withTimers (r : Outcome) (t : Timers) : Outcome := (Machine.withTimers r.1 t, r.2)

variable (m : Machine) (t : Timers)

/-! ## Parts of an instruction -/

theorem skipIf_withTimers (condition : Bool) :
    (m.withTimers t).skipIf condition = (m.skipIf condition).withTimers t := by
  unfold skipIf
  split
  · rfl
  · rfl

theorem passBlock_withTimers (count : Nat) :
    (m.withTimers t).passBlock count = (m.passBlock count).withTimers t := by
  have dialect : (m.withTimers t).dialect = m.dialect := rfl
  unfold passBlock
  rw [dialect]
  split
  · rfl
  · rfl

theorem addToIndex_withTimers (b : UInt8) :
    (m.withTimers t).addToIndex b = (m.addToIndex b).withTimers t := by
  have dialect : (m.withTimers t).dialect = m.dialect := rfl
  have index : (m.withTimers t).index = m.index := rfl
  unfold addToIndex
  rw [dialect, index]
  dsimp only
  split
  · rfl
  · rfl

theorem waitKey_withTimers (x : Fin 16) :
    (m.withTimers t).waitKey x = (m.waitKey x).withTimers t := by
  have keypad : (m.withTimers t).keypad = m.keypad := rfl
  unfold waitKey
  rw [keypad]
  cases m.keypad.first? with
  | none => rfl
  | some key => rfl

theorem call_withTimers (address : UInt16) :
    (m.withTimers t).call address = (m.call address).withTimers t := by
  have stack : (m.withTimers t).stack = m.stack := rfl
  unfold call
  rw [stack]
  split
  · rfl
  · rfl

theorem ret_withTimers : (m.withTimers t).ret = m.ret.withTimers t := by
  have stack : (m.withTimers t).stack = m.stack := rfl
  unfold ret
  rw [stack]
  cases m.stack with
  | nil => rfl
  | cons address rest => rfl

theorem storeBlock_withTimers (bytes : List UInt8) :
    (m.withTimers t).storeBlock bytes = (m.storeBlock bytes).withTimers t := by
  have memory : (m.withTimers t).memory = m.memory := rfl
  have index : (m.withTimers t).index = m.index := rfl
  unfold storeBlock
  rw [memory, index]
  cases m.memory.policy.check m.index.toNat bytes.length with
  | error f => rfl
  | ok => rfl

theorem storeRegisters_withTimers (count : Nat) :
    (m.withTimers t).storeRegisters count = (m.storeRegisters count).withTimers t := by
  have v : (m.withTimers t).v = m.v := rfl
  unfold storeRegisters
  rw [v, storeBlock_withTimers]
  rcases m.storeBlock (m.v.toList.take count) with ⟨r, f | ⟨⟩⟩
  · rfl
  · exact congrArg done (passBlock_withTimers r t count)

theorem loadRegisters_withTimers (count : Nat) :
    (m.withTimers t).loadRegisters count = (m.loadRegisters count).withTimers t := by
  have block : (m.withTimers t).loadBlock count = m.loadBlock count := rfl
  unfold loadRegisters
  rw [block]
  cases m.loadBlock count with
  | error f => rfl
  | ok bytes => exact congrArg done (passBlock_withTimers (m.setRegisters bytes) t count)

theorem drawSprite_withTimers (i : Instruction) :
    (m.withTimers t).drawSprite i = (m.drawSprite i).withTimers t := by
  have block : (m.withTimers t).loadBlock i.n = m.loadBlock i.n := rfl
  unfold drawSprite
  rw [block]
  cases m.loadBlock i.n with
  | error f => rfl
  | ok sprite => rfl

/-! ## Instructions -/

/-- **Other operations do not see the timers.** -/
theorem effect_withTimers {i : Instruction} (untimed : i.op.usesTimers = false) :
    (m.withTimers t).effect i = (m.effect i).withTimers t := by
  have skip (condition : Bool) :
      done ((m.withTimers t).skipIf condition) = (done (m.skipIf condition)).withTimers t :=
    congrArg done (skipIf_withTimers m t condition)
  cases hop : i.op <;> simp only [effect, hop]
  case getDelay | setDelay | setSound =>
    rw [hop] at untimed
    cases untimed
  case ret => exact ret_withTimers m t
  case call => exact call_withTimers m t i.nnn
  case skipEqByte | skipNeByte | skipEqReg | skipNeReg | skipKey | skipNoKey => exact skip _
  case addIndex => exact congrArg done (addToIndex_withTimers m t (m.v.get i.x))
  case waitKey => exact congrArg done (waitKey_withTimers m t i.x)
  case digits => exact storeBlock_withTimers m t (decimalDigits (m.v.get i.x))
  case store => exact storeRegisters_withTimers m t (i.x.toNat + 1)
  case load => exact loadRegisters_withTimers m t (i.x.toNat + 1)
  case draw => exact drawSprite_withTimers m t i
  -- what is left writes to registers, random bytes or the screen, or is refused
  all_goals rfl

variable {m t}

theorem RefusedWith.untimed {i : Instruction} {f : Fault} (h : m.RefusedWith i f) :
    i.op.usesTimers = false := by
  cases h with
  | unknown op => rcases op with op | op <;> rw [op] <;> rfl
  | overflow op => rw [op]; rfl
  | underflow op => rw [op]; rfl
  | access op => rcases op with op | op | op | op <;> rw [op] <;> rfl

/-! ## Steps -/

/-- The instruction at the program counter reads or sets a timer. -/
def atTimer (m : Machine) : Bool := m.current?.any fun i => i.op.usesTimers

theorem untimed_of_atTimer (h : m.atTimer = false) {w : UInt16} (hf : m.fetch = .ok w) :
    (decode w).op.usesTimers = false := by
  rw [atTimer, current?, hf] at h
  exact h

/-- Instructions with timers never fail. -/
theorem not_atTimer_of_error {m' : Machine} {f : Fault} (h : m.step = (m', .error f)) : m.atTimer = false := by
  rcases step_error_cases h with ⟨g, _, hf, -, -⟩ | ⟨w, g, hf, he, -, -⟩
  · rw [atTimer, current?, hf]
    rfl
  · rw [atTimer, current?, hf]
    exact (effect_refused he).2.untimed

theorem step_withTimers (h : m.atTimer = false) (t : Timers) :
    (m.withTimers t).step = (m.step.1.withTimers t, m.step.2) := by
  have fetch : (m.withTimers t).fetch = m.fetch := rfl
  cases hf : m.fetch with
  | error f =>
      rw [step_of_fetch_error hf, step_of_fetch_error (fetch.trans hf)]
      rfl
  | ok w =>
      have same := effect_withTimers m.begun t (untimed_of_atTimer h hf)
      rcases he : m.begun.effect (decode w) with ⟨r, f | ⟨⟩⟩
      · rw [he] at same
        rw [step_of_effect_error hf he, step_of_effect_error (fetch.trans hf) same]
        rfl
      · rw [he] at same
        rw [step_of_effect_ok hf he, step_of_effect_ok (fetch.trans hf) same]
        rfl

theorem step_timers (h : m.atTimer = false) : m.step.1.timers = m.timers := by
  cases hc : m.current? with
  | none => rw [step_of_none hc]
  | some i =>
      rw [atTimer, hc] at h
      have untimed : i.op.usesTimers = false := h
      refine (step_footprint hc).timers ?_ ?_
      · intro op
        rw [op] at untimed
        cases untimed
      · intro op
        rw [op] at untimed
        cases untimed

/-- **A tick may come before or behind.** -/
theorem tick_step (h : m.atTimer = false) : m.tick.step = (m.step.1.tick, m.step.2) := by
  have before := step_withTimers h m.timers.tick
  have behind : m.step.1.tick = m.step.1.withTimers m.timers.tick := by
    rw [tick, step_timers h]
    rfl
  rw [behind]
  exact before

end Machine

end Chip8
