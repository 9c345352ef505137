import Chip8.Proofs.Emulator.Snapshots
import Chip8.Proofs.Machine.Footprint

/-!
# Routines

A call puts its return address on the stack, and a return takes the latest one off; nothing else
that happens while a program runs has to do with the stack (`step_stack`). So as long as the stack
is higher than it was when a routine was called, the return address and all that was there before
lie untouched at its bottom. Whatever the routine does, the first action to bring the stack back to
that height is a return that goes on behind the call.
-/

namespace Chip8

open Chip8.Debug Chip8.Snapshot

/-! ## One step -/

namespace Machine

variable {m : Machine} {i : Instruction}

theorem step_call (h : m.current? = some i) (call : i.op = .call)
    (room : m.stack.length < stackDepth) :
    m.step = ({ m.begun with
      stack := ((m.pc + 2).toNat : Int) :: m.stack
      pc := i.nnn
      lastInstruction := some i }, .ok i) := by
  have pushed : m.begun.effect i =
      ({ m.begun with stack := ((m.pc + 2).toNat : Int) :: m.stack, pc := i.nnn }, .ok ()) := by
    rw [effect, call]
    exact if_neg (Nat.not_le.mpr room)
  exact step_of_executed h pushed

theorem step_ret {address : Int} {rest : List Int} (h : m.current? = some i) (ret : i.op = .ret)
    (stack : m.stack = address :: rest) :
    m.step = ({ m.begun with
      stack := rest
      pc := wordOf address
      lastInstruction := some i }, .ok i) := by
  have popped : m.begun.effect i =
      ({ m.begun with stack := rest, pc := wordOf address }, .ok ()) := by
    have top : m.begun.stack = address :: rest := stack
    rw [effect, ret]
    simp only [Machine.ret, top, done]
  exact step_of_executed h popped

theorem call_stack (m : Machine) (address : UInt16) :
    (m.call address).1.stack = m.stack ∨ ∃ a, (m.call address).1.stack = a :: m.stack := by
  unfold Machine.call
  split
  · exact Or.inl rfl
  · exact Or.inr ⟨_, rfl⟩

/-- A step leaves the stack as it is, or is a call that puts an address on it, or a return that
takes one off. -/
theorem step_stack (m : Machine) :
    m.step.1.stack = m.stack ∨ (∃ address, m.step.1.stack = address :: m.stack) ∨
      ∃ i address rest, m.current? = some i ∧ i.op = .ret ∧ m.stack = address :: rest := by
  cases h : m.current? with
  | none => exact Or.inl (congrArg Machine.stack (step_of_none h))
  | some i =>
      obtain ⟨pc, last, stepped⟩ := step_frame h
      by_cases call : i.op = .call
      · rw [stepped, effect, call]
        rcases call_stack m.begun i.nnn with same | pushed
        · exact Or.inl same
        · exact Or.inr (Or.inl pushed)
      · by_cases ret : i.op = .ret
        · cases stack : m.stack with
          | nil =>
              have empty : m.begun.stack = [] := stack
              left
              rw [stepped, effect, ret]
              simp only [Machine.ret, empty, refused]
          | cons address rest => exact Or.inr (Or.inr ⟨i, address, rest, rfl, ret, rfl⟩)
        · exact Or.inl ((step_footprint h).stack call ret)

end Machine

namespace Emulator

variable {e : Emulator} {base : List Int}

/-! ## Actions around a program -/

/-- What a host does while a program runs step by step: it neither loads anything nor sets
registers. -/
def Action.plain : Action → Bool
  | .step | .skip | .tick | .press _ | .release _ | .write _ _ | .writeBytes _ _ => true
  | _ => false

/-- The emulator after actions one after the other. -/
def afterAll (e : Emulator) (as : List Action) : Emulator := as.foldl after e

def depth (e : Emulator) : Nat := e.machine.stack.length

/-- From the start through all actions the stack is higher than `d`. -/
def StaysAbove (d : Nat) (e : Emulator) (as : List Action) : Prop :=
  ∀ k ≤ as.length, d < (e.afterAll (as.take k)).depth

/-- A return has just been executed, and went on at the address that it took off the stack. -/
structure Returned (address : UInt16) (stack : List Int) (e e' : Emulator) : Prop where
  instruction : ∃ i, e.machine.current? = some i ∧ i.op = .ret
  succeeded : e.step.1.reason = .step
  pc : e'.machine.pc = address
  stack : e'.machine.stack = stack

instance (d : Nat) (e : Emulator) (as : List Action) : Decidable (StaysAbove d e as) :=
  inferInstanceAs (Decidable (∀ k ≤ as.length, d < (e.afterAll (as.take k)).depth))

theorem staysAbove_cons {d : Nat} {a : Action} {as : List Action} (h : StaysAbove d e (a :: as)) :
    d < e.depth ∧ StaysAbove d (e.after a) as := by
  refine ⟨h 0 (Nat.zero_le _), ?_⟩
  intro k hk
  exact h (k + 1) (Nat.succ_le_succ hk)

theorem after_stack {a : Action} (plain : a.plain) (other : a ≠ .step) :
    (e.after a).machine.stack = e.machine.stack := by
  cases a with
  | step => exact absurd rfl other
  | skip | tick | writeBytes => rfl
  | press key =>
      rw [after, press]
      cases key.resolve <;> rfl
  | release key =>
      rw [after, release]
      cases key.resolve <;> rfl
  | write address value =>
      rw [after]
      split <;> rfl
  | _ => cases plain

/-! ## Inside a routine -/

/-- What lies at the bottom of the stack stays there, unless its latest address is returned to. -/
theorem after_bottom {address : UInt16} {a : Action} (plain : a.plain)
    (h : ((address.toNat : Int) :: base) <:+ e.machine.stack) :
    ((address.toNat : Int) :: base) <:+ (e.after a).machine.stack ∨
      a = .step ∧ Returned address base e (e.after a) := by
  by_cases step : a = .step
  · subst step
    rw [show e.after .step = e.step.2 from rfl, step_machine]
    rcases e.machine.step_stack with same | ⟨_, pushed⟩ | ⟨i, top, rest, current, ret, stack⟩
    · exact Or.inl (same ▸ h)
    · exact Or.inl (pushed ▸ h.trans (List.suffix_cons _ _))
    · -- the address taken off is the lowest one of `h`, or lies above it
      have stepped := Machine.step_ret current ret stack
      rw [stack, List.suffix_cons_iff] at h
      rcases h with bottom | deeper
      · cases bottom
        right
        refine ⟨rfl, ⟨i, current, ret⟩, ?_, ?_, ?_⟩
        · rw [step_of_ok stepped]
          rfl
        · rw [step_machine, stepped]
          exact wordOf_toNat _
        · rw [step_machine, stepped]
      · left
        rw [stepped]
        exact deeper
  · left
    rw [after_stack plain step]
    exact h

theorem afterAll_bottom {address : UInt16} {as : List Action} (plain : ∀ a ∈ as, a.plain)
    (h : ((address.toNat : Int) :: base) <:+ e.machine.stack)
    (above : StaysAbove base.length e as) :
    ((address.toNat : Int) :: base) <:+ (e.afterAll as).machine.stack := by
  induction as generalizing e with
  | nil => exact h
  | cons a rest ih =>
      obtain ⟨-, later⟩ := staysAbove_cons above
      rcases after_bottom (plain a List.mem_cons_self) h with kept | ⟨-, returned⟩
      · exact ih (fun b hb => plain b (List.mem_cons_of_mem _ hb)) kept later
      · -- a return would have brought the stack down, which `above` rules out
        have back := later 0 (Nat.zero_le _)
        rw [show ((e.after a).afterAll (rest.take 0)) = e.after a from rfl, depth,
          returned.stack] at back
        exact absurd back (Nat.lt_irrefl _)

theorem step_stack_of_failed (h : e.step.1.reason = .fault) :
    e.step.2.machine.stack = e.machine.stack := by
  obtain ⟨m, f, hm⟩ := (step_reason_eq_fault_iff e).mp h
  have unchanged := Machine.step_error_unchanged hm
  rw [step_machine, hm]
  show m.stack = e.machine.stack
  rw [unchanged]

/-- **Calls and returns are paired.** The stack has no more entries than there is room for, and a
step that fails leaves it as it is. A call with room on the stack succeeds. From then on, as long
as the stack is higher than before the call, all that was on it and the return address above lie
at its bottom; and the action that brings it back to that height is a step that executes a return:
it goes on behind the call, with the stack as it was. -/
theorem calls_return (r : Reachable e) :
    e.depth ≤ stackDepth ∧
    (e.step.1.reason = .fault → e.step.2.machine.stack = e.machine.stack) ∧
    ∀ i, e.machine.current? = some i → i.op = .call → e.depth < stackDepth →
      (e.step.1.reason = .step ∧
        e.step.2.machine.stack = ((e.machine.pc + 2).toNat : Int) :: e.machine.stack) ∧
      ∀ as : List Action, (∀ a ∈ as, a.plain) → StaysAbove e.depth e.step.2 as →
        (((e.machine.pc + 2).toNat : Int) :: e.machine.stack) <:+
            (e.step.2.afterAll as).machine.stack ∧
          ∀ a : Action, a.plain → (e.step.2.afterAll (as ++ [a])).depth ≤ e.depth →
            a = .step ∧
              Returned (e.machine.pc + 2) e.machine.stack (e.step.2.afterAll as)
                (e.step.2.afterAll (as ++ [a])) := by
  refine ⟨r.inRange.depth, step_stack_of_failed, ?_⟩
  intro i current call room
  have called := Machine.step_call current call room
  have stack : e.step.2.machine.stack =
      ((e.machine.pc + 2).toNat : Int) :: e.machine.stack := by
    rw [step_machine, called]
  refine ⟨⟨?_, stack⟩, ?_⟩
  · rw [step_of_ok called]
    rfl
  · intro as plain above
    have start : (((e.machine.pc + 2).toNat : Int) :: e.machine.stack) <:+
        e.step.2.machine.stack := ⟨[], stack.symm⟩
    have bottom := afterAll_bottom plain start above
    refine ⟨bottom, ?_⟩
    intro a plain' back
    have last : e.step.2.afterAll (as ++ [a]) = (e.step.2.afterAll as).after a :=
      List.foldl_append
    rw [last] at back ⊢
    rcases after_bottom plain' bottom with kept | returned
    · have high := kept.length_le
      rw [List.length_cons] at high
      exact absurd back (Nat.not_le.mpr high)
    · exact returned

/-- A routine at `0x206` that calls another one at `0x20A`, which returns at once. -/
def nestedCalls : Emulator :=
  loaded .fault 700
    [0x22, 0x06, 0x12, 0x02, 0x00, 0x00, 0x22, 0x0A, 0x00, 0xEE, 0x00, 0xEE]

/-- What happens in the outer routine before it returns. -/
def insideNested : List Action := [.step, .tick, .write 0x300 7, .step, .press (.number 3)]

theorem nestedCalls_return :
    (nestedCalls.machine.pc = 0x200 ∧ nestedCalls.machine.stack = []) ∧
      nestedCalls.machine.current?.map Instruction.op = some .call ∧
      StaysAbove nestedCalls.depth nestedCalls.step.2 insideNested ∧
      Returned (nestedCalls.machine.pc + 2) nestedCalls.machine.stack
        (nestedCalls.step.2.afterAll insideNested)
        (nestedCalls.step.2.afterAll (insideNested ++ [.step])) := by
  have reachable : Reachable nestedCalls := reachable_loaded (by decide) (by decide)
  have call : nestedCalls.machine.current?.map Instruction.op = some .call := by decide +kernel
  have above : StaysAbove nestedCalls.depth nestedCalls.step.2 insideNested := by decide +kernel
  obtain ⟨i, current, op⟩ := Option.map_eq_some_iff.mp call
  obtain ⟨-, -, calls⟩ := calls_return reachable
  obtain ⟨-, inside⟩ := calls i current op (by decide +kernel)
  obtain ⟨-, back⟩ := inside insideNested (by decide) above
  exact ⟨by decide +kernel, call, above, (back .step rfl (by decide +kernel)).2⟩

end Emulator

end Chip8
