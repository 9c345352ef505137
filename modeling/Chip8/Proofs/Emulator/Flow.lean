import Chip8.Proofs.Emulator.Failures
import Chip8.Proofs.Machine.Numbers
import Chip8.Proofs.Machine.Waiting

/-!
# Where a program goes on

An instruction is fetched from wherever the program counter stands, and the program goes on behind
it. Jumps, calls and returns lead elsewhere, a skip whose condition holds leads past one more
instruction, and a wait for a key leads back to itself (`Machine.target`). Addresses are taken
modulo 65536, not modulo the size of the memory. The stack has the address behind a call put on it
and the address that a return leads to taken off, and is left alone by everything else.
-/

namespace Chip8

namespace Machine

variable (m : Machine) (i : Instruction)

/-! ## Destinations -/

/-- Whether an instruction is a skip whose condition holds. Of the number of a key only the low
nibble counts. -/
def skips : Bool :=
  let x := m.v.get i.x
  let key : Fin 16 := ⟨x.toNat % 16, Nat.mod_lt _ (by decide)⟩
  match i.op with
  | .skipEqByte => decide (x = i.nn)
  | .skipNeByte => decide (x ≠ i.nn)
  | .skipEqReg => decide (x = m.v.get i.y)
  | .skipNeReg => decide (x ≠ m.v.get i.y)
  | .skipKey => m.keypad.down.get key
  | .skipNoKey => !m.keypad.down.get key
  | _ => false

/-- Where an instruction leads, before the address is reduced. -/
def target : Nat :=
  match i.op with
  | .jp | .call => i.nnn.toNat
  | .ret => (m.stack.headD 0).toNat
  | .jpOffset => i.nnn.toNat + (m.v.get (if m.dialect.jumpsByVX then i.x else first)).toNat
  | .waitKey => if ∀ key, m.keypad.down.get key = false then m.pc.toNat else m.pc.toNat + 2
  | _ => if m.skips i then m.pc.toNat + 4 else m.pc.toNat + 2

variable {m m' : Machine} {i : Instruction}

/-- What an instruction that was executed made of the program counter and the stack. -/
structure Flow (m : Machine) (i : Instruction) (m' : Machine) : Prop where
  pc : m'.pc.toNat = m.target i % 65536
  wraps : m.target i = m.pc.toNat + 2 → 0xFFFE ≤ m.pc.toNat → m'.pc.toNat = m.pc.toNat - 0xFFFE
  call : i.op = .call → m'.stack = (((m.pc.toNat + 2) % 65536 : Nat) : Int) :: m.stack
  ret : i.op = .ret → m.stack = (m'.pc.toNat : Int) :: m'.stack
  stack : i.op ≠ .call → i.op ≠ .ret → m'.stack = m.stack

/-! ## The program counter -/

theorem pc_begun (m : Machine) : m.begun.pc.toNat = (m.pc.toNat + 2) % 65536 :=
  UInt16.toNat_add m.pc 2

theorem pc_skipIf (m : Machine) (condition : Bool) :
    (m.begun.skipIf condition).pc.toNat =
      (if condition then m.pc.toNat + 4 else m.pc.toNat + 2) % 65536 := by
  cases condition with
  | false => exact pc_begun m
  | true =>
      show (m.begun.pc + 2).toNat = (m.pc.toNat + 4) % 65536
      rw [UInt16.toNat_add, pc_begun]
      exact Nat.mod_add_mod _ _ _

theorem toNat_jumpTarget (m : Machine) (i : Instruction) :
    (m.jumpTarget i).toNat =
      (i.nnn.toNat + (m.v.get (if m.dialect.jumpsByVX then i.x else first)).toNat) % 65536 := by
  unfold jumpTarget
  rw [UInt16.toNat_add, UInt8.toNat_toUInt16]
  cases m.dialect.jumpsByVX <;> rfl

theorem pc_waitKey (m : Machine) (x : Fin 16) :
    (m.begun.waitKey x).pc.toNat =
      (if ∀ key, m.keypad.down.get key = false then m.pc.toNat else m.pc.toNat + 2) % 65536 := by
  have keypad : m.begun.keypad = m.keypad := rfl
  unfold waitKey
  rw [keypad]
  by_cases released : ∀ key, m.keypad.down.get key = false
  · rw [if_pos released, Keypad.first?_of_released released]
    show (m.pc + 2 - 2).toNat = _
    rw [UInt16.add_sub_cancel, Nat.mod_eq_of_lt m.pc.toNat_lt]
  · have held : ∃ key, m.keypad.down.get key = true := by
      simpa only [not_forall, Bool.not_eq_false] using released
    obtain ⟨key, first, -, -⟩ := Keypad.first?_of_held held
    rw [if_neg released, first]
    exact pc_begun m

/-- All instructions but calls and returns lead to their targets. Those which are refused anyhow
have the one behind them for a target. -/
theorem pc_effect (call : i.op ≠ .call) (ret : i.op ≠ .ret) :
    (m.begun.effect i).1.pc.toNat = m.target i % 65536 := by
  cases hop : i.op <;> simp only [effect, target, skips, hop]
  case call => exact absurd hop call
  case ret => exact absurd hop ret
  case jp => exact (Nat.mod_eq_of_lt i.nnn.toNat_lt).symm
  case jpOffset => exact toNat_jumpTarget m.begun i
  case skipEqByte | skipEqReg | skipKey | skipNoKey => exact pc_skipIf m _
  case skipNeByte | skipNeReg =>
    rw [decide_not]
    exact pc_skipIf m _
  case waitKey => exact pc_waitKey m i.x
  case addIndex =>
    obtain ⟨v, index, added⟩ := addToIndex_frame m.begun (m.begun.v.get i.x)
    show (m.begun.addToIndex (m.begun.v.get i.x)).pc.toNat = _
    rw [added]
    exact pc_begun m
  case digits =>
    obtain ⟨memory, stored⟩ := storeBlock_frame m.begun (decimalDigits (m.begun.v.get i.x))
    rw [stored]
    exact pc_begun m
  case store =>
    obtain ⟨memory, index, stored⟩ := storeRegisters_frame m.begun (i.x.toNat + 1)
    rw [stored]
    exact pc_begun m
  case load =>
    obtain ⟨v, index, loaded⟩ := loadRegisters_frame m.begun (i.x.toNat + 1)
    rw [loaded]
    exact pc_begun m
  case draw =>
    obtain ⟨v, screen, drawn⟩ := drawSprite_frame m.begun i
    rw [drawn]
    exact pc_begun m
  -- what is left goes on behind itself
  all_goals exact pc_begun m

/-! ## The stack -/

theorem call_executed {address : UInt16} (executed : m.call address = (m', .ok ())) :
    m' = { m with stack := (m.pc.toNat : Int) :: m.stack, pc := address } := by
  unfold Machine.call at executed
  split at executed
  · cases executed
  · exact (congrArg Prod.fst executed).symm

theorem ret_executed (executed : m.ret = (m', .ok ())) :
    ∃ address rest, m.stack = address :: rest ∧
      m' = { m with stack := rest, pc := wordOf address } := by
  unfold Machine.ret at executed
  cases stack : m.stack with
  | nil =>
      rw [stack] at executed
      cases executed
  | cons address rest =>
      rw [stack] at executed
      exact ⟨address, rest, rfl, (congrArg Prod.fst executed).symm⟩

/-- The address behind the last one is at the beginning. -/
theorem pc_of_wraps (pc : m'.pc.toNat = m.target i % 65536) (behind : m.target i = m.pc.toNat + 2)
    (top : 0xFFFE ≤ m.pc.toNat) : m'.pc.toNat = m.pc.toNat - 0xFFFE := by
  have bound := m.pc.toNat_lt
  omega

/-! ## Flow -/

theorem flow_call (call : i.op = .call) (executed : m.begun.effect i = (m', .ok ())) :
    Flow m i m' := by
  rw [effect, call] at executed
  have pushed := call_executed executed
  have pc : m'.pc.toNat = m.target i % 65536 := by
    rw [target, call, pushed]
    exact (Nat.mod_eq_of_lt i.nnn.toNat_lt).symm
  refine ⟨pc, pc_of_wraps pc, fun _ => ?_, fun ret => ?_, fun other => absurd call other⟩
  · rw [pushed, pc_begun]
    rfl
  · rw [call] at ret
    cases ret

/-- The address on the stack is a word, so the program counter can hold it. -/
theorem flow_ret (range : m.InRange) (ret : i.op = .ret)
    (executed : m.begun.effect i = (m', .ok ())) : Flow m i m' := by
  rw [effect, ret] at executed
  obtain ⟨address, rest, stack, popped⟩ := ret_executed executed
  have here : m.stack = address :: rest := stack
  obtain ⟨low, high⟩ := range.addresses address (here ▸ List.mem_cons_self)
  have word : ((wordOf address).toNat : Int) = address := wordOf_exact low high
  have pc : m'.pc.toNat = m.target i % 65536 := by
    rw [target, ret, popped, here, List.headD_cons]
    show (wordOf address).toNat = address.toNat % 65536
    omega
  refine ⟨pc, pc_of_wraps pc, fun call => ?_, fun _ => ?_, fun _ other => absurd ret other⟩
  · rw [ret] at call
    cases call
  · rw [here, popped]
    show address :: rest = ((wordOf address).toNat : Int) :: rest
    rw [word]

theorem flow_other (call : i.op ≠ .call) (ret : i.op ≠ .ret) :
    Flow m i (m.begun.effect i).1 := by
  have pc := pc_effect (m := m) call ret
  exact ⟨pc, pc_of_wraps pc, fun op => absurd op call, fun op => absurd op ret,
    (effect_footprint m.begun i).stack⟩

/-- **Where an instruction leads.** -/
theorem flow_effect (range : m.InRange) (executed : m.begun.effect i = (m', .ok ())) :
    Flow m i m' := by
  by_cases call : i.op = .call
  · exact flow_call call executed
  by_cases ret : i.op = .ret
  · exact flow_ret range ret executed
  · have effect : (m.begun.effect i).1 = m' := congrArg Prod.fst executed
    rw [← effect]
    exact flow_other call ret

end Machine

namespace Emulator

variable {e : Emulator}

/-- **Control flow.** A step that does not fail executes the word at the program counter, wherever
that stands, and goes on at the target of this instruction. The address behind a call is put on the
stack, a return takes off the address that it leads to, and otherwise the stack stays. -/
theorem step_flow (r : Reachable e) (executed : e.step.1.reason ≠ .fault) :
    Machine.Flow e.machine (decode e.machine.wordHere) e.step.2.machine := by
  rcases stepped : e.machine.step with ⟨m, f | i⟩
  · exact absurd ((step_reason_eq_fault_iff e).mpr ⟨m, f, stepped⟩) executed
  · obtain ⟨m', current, effect, rfl⟩ := Machine.executed_of_step stepped
    have flow := Machine.flow_effect r.inRange effect
    rw [step_machine, stepped, ← Machine.eq_decode_wordHere current]
    exact ⟨flow.pc, flow.wraps, flow.call, flow.ret, flow.stack⟩

/-- The program counter is on the highest address, and the word there is a call: its first byte is
the last one of the memory and its second byte the first. The routine returns at once. -/
def callsFromTop : Emulator :=
  ((loaded .wrap 700 [0x00, 0xEE]).after (.write 0xFFF 0x22)).after (.setRegister .pc 0xFFFF)

theorem callsFromTop_flow :
    (callsFromTop.step.1.reason ≠ .fault ∧ decode callsFromTop.machine.wordHere = decode 0x2200 ∧
      callsFromTop.step.2.machine.pc.toNat = 0x200 ∧ callsFromTop.step.2.machine.stack = [1]) ∧
    callsFromTop.step.2.step.1.reason ≠ .fault ∧
      callsFromTop.step.2.step.2.machine.pc.toNat = 1 := by
  have start : Reachable callsFromTop :=
    ((reachable_loaded (by decide) (by decide)).after (.write 0xFFF 0x22)).after
      (.setRegister .pc 0xFFFF)
  have first : callsFromTop.step.1.reason ≠ .fault ∧
      decode callsFromTop.machine.wordHere = decode 0x2200 ∧
      callsFromTop.machine.pc.toNat = 0xFFFF ∧ callsFromTop.machine.stack = [] := by
    decide +kernel
  obtain ⟨calls, call, pc, empty⟩ := first
  have called := step_flow start calls
  rw [call] at called
  have stack := called.call (by decide +kernel)
  rw [pc, empty] at stack
  have second : callsFromTop.step.2.step.1.reason ≠ .fault ∧
      decode callsFromTop.step.2.machine.wordHere = decode 0x00EE := by
    decide +kernel
  obtain ⟨returns, ret⟩ := second
  have inside : Reachable callsFromTop.step.2 := start.after .step
  have returned := step_flow inside returns
  rw [ret] at returned
  have back := returned.ret (by decide +kernel)
  rw [stack] at back
  have target : callsFromTop.machine.target (decode 0x2200) % 65536 = 0x200 := rfl
  refine ⟨⟨calls, call, called.pc.trans target, stack⟩, returns, ?_⟩
  exact (Int.ofNat_inj.mp (List.cons.inj back).1).symm

end Emulator

end Chip8
