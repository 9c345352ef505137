import Chip8.Proofs.Emulator.Routines
import Chip8.Proofs.Machine.Alike

/-!
# Starting over

A reset looks at four things only: the dialect, the policy, the frequency and the program. The
first three an emulator keeps for life, and the program until another one is loaded. So whatever
has happened before, a load or a reset leads to the state of a new emulator with the same program.
What the host put around the machine outlives it: breakpoints and conditions, the last event, the
listener of the tone and the trace. So does the source of random bytes, which goes on where it is.
-/

namespace Chip8

open Chip8.Debug

theorem Timers.reset_frame (t : Timers) : ∃ told, t.reset = ⟨0, 0, t.listening, told⟩ :=
  Timers.tell_frame { t with delay := 0, sound := 0 } t.toneOn

/-! ## What a machine keeps for life -/

namespace Machine

/-- Two machines of one dialect and one policy. -/
structure SameKind (m m' : Machine) : Prop where
  dialect : m'.dialect = m.dialect
  policy : m'.memory.policy = m.memory.policy

theorem writeBytes_policy (memory : Memory) (address : Int) (bytes : List UInt8) :
    (memory.writeBytes address bytes).1.policy = memory.policy := by
  induction bytes generalizing memory address with
  | nil => rfl
  | cons b rest ih =>
      rw [Memory.writeBytes, Memory.write]
      cases memory.policy.resolve address with
      | error f => rfl
      | ok cell => exact ih { memory with cells := Table.put memory.cells cell b } (address + 1)

theorem storeBlock_policy (m : Machine) (bytes : List UInt8) :
    (m.storeBlock bytes).1.memory.policy = m.memory.policy := by
  unfold storeBlock
  split
  · rfl
  · exact writeBytes_policy _ _ _

theorem effect_sameKind (m : Machine) (i : Instruction) : SameKind m (m.effect i).1 := by
  have touched := effect_footprint m i
  refine ⟨touched.dialect, ?_⟩
  by_cases digits : i.op = .digits
  · rw [effect, digits]
    exact storeBlock_policy m _
  · by_cases store : i.op = .store
    · rw [effect, store]
      show (m.storeRegisters _).1.memory.policy = m.memory.policy
      have stored := storeBlock_policy m (m.v.toList.take (i.x.toNat + 1))
      unfold storeRegisters
      rcases hs : m.storeBlock (m.v.toList.take (i.x.toNat + 1)) with ⟨m', _ | ⟨⟩⟩ <;>
        rw [hs] at stored
      · exact stored
      · obtain ⟨index, passed⟩ := passBlock_frame m' (i.x.toNat + 1)
        show (m'.passBlock _).memory.policy = m.memory.policy
        rw [passed]
        exact stored
    · rw [touched.memory digits store]

theorem execute_sameKind (m : Machine) (i : Instruction) : SameKind m (m.execute i).1 :=
  have begun := effect_sameKind { m with waitingForKey := false } i
  ⟨begun.dialect, begun.policy⟩

theorem step_sameKind (m : Machine) : SameKind m m.step.1 := by
  refine ⟨?_, step_policy m⟩
  cases h : m.current? with
  | none => rw [step_of_none h]
  | some i => exact (step_footprint h).dialect

theorem restore_sameKind (m : Machine) (raw : List UInt8) : SameKind m (m.restore raw).1 := by
  obtain ⟨_, _, _, _, _, _, _, _, _, _, restored⟩ := restore_overwrites m raw
  rw [restored]
  exact ⟨rfl, rfl⟩

end Machine

namespace Emulator

variable {e e' n : Emulator}

/-- Two emulators of one kind and one frequency with the same program. -/
structure SameSetup (e e' : Emulator) : Prop extends Machine.SameKind e.machine e'.machine where
  frequency : e'.frequency = e.frequency
  program : e'.program = e.program

theorem SameSetup.refl (e : Emulator) : SameSetup e e := ⟨⟨rfl, rfl⟩, rfl, rfl⟩

theorem SameSetup.trans {e'' : Emulator} (h : SameSetup e e') (h' : SameSetup e' e'') :
    SameSetup e e'' :=
  ⟨⟨h'.dialect.trans h.dialect, h'.policy.trans h.policy⟩, h'.frequency.trans h.frequency,
    h'.program.trans h.program⟩

theorem kept_sameSetup (e : Emulator) : Kept (SameSetup e) where
  step {x} h := by
    have kind := Machine.step_sameKind x.machine
    rw [← step_machine x] at kind
    rcases hm : x.machine.step with ⟨m, f | i⟩
    · rw [step_of_error hm] at kind ⊢
      exact h.trans ⟨kind, rfl, rfl⟩
    · rw [step_of_ok hm] at kind ⊢
      exact h.trans ⟨kind, rfl, rfl⟩
  tick h := h.trans ⟨⟨rfl, rfl⟩, rfl, rfl⟩
  skip h := h.trans ⟨⟨rfl, rfl⟩, rfl, rfl⟩
  debugger _ h := h.trans ⟨⟨rfl, rfl⟩, rfl, rfl⟩
  credit _ _ h := h.trans ⟨⟨rfl, rfl⟩, rfl, rfl⟩

/-! ## Actions that load nothing -/

/-- The action loads a program, and succeeds. -/
def loads (e : Emulator) : Action → Bool
  | .load program => (e.loadProgram program).isOk
  | .loadFile files path => (e.loadFile files path).isOk
  | _ => false

/-- Of actions one after the other none succeeds in loading a program. -/
def LoadsNothing : Emulator → List Action → Prop
  | _, [] => True
  | e, a :: rest => e.loads a = false ∧ LoadsNothing (e.after a) rest

instance : (e : Emulator) → (as : List Action) → Decidable (LoadsNothing e as)
  | _, [] => .isTrue trivial
  | e, a :: rest =>
    have := instDecidableLoadsNothing (e.after a) rest
    inferInstanceAs (Decidable (e.loads a = false ∧ LoadsNothing (e.after a) rest))

theorem toOption_getD_of_not_isOk {ε α : Type} {r : Except ε α} (h : r.isOk = false) (a : α) :
    r.toOption.getD a = a := by
  cases r with
  | error _ => rfl
  | ok _ => cases h

theorem reset_sameSetup (e : Emulator) : SameSetup e e.reset := ⟨⟨rfl, rfl⟩, rfl, rfl⟩

theorem restore_sameSetup (e : Emulator) (raw : List UInt8) : SameSetup e (e.restore raw).1 :=
  ⟨Machine.restore_sameKind e.machine raw, rfl, rfl⟩

theorem setRegister_sameSetup {r : Register} {value : Int} (h : e.setRegister r value = .ok e') :
    SameSetup e e' := by
  unfold setRegister at h
  cases r with
  | v r =>
      dsimp only at h
      split at h
      · cases h
        exact ⟨⟨rfl, rfl⟩, rfl, rfl⟩
      · cases h
  | index | pc | delay | sound | stackPointer =>
      cases h
      exact ⟨⟨rfl, rfl⟩, rfl, rfl⟩

theorem after_sameSetup {a : Action} (quiet : e.loads a = false) : SameSetup e (e.after a) := by
  have same := SameSetup.refl e
  cases a with
  | load program =>
      rw [after, toOption_getD_of_not_isOk quiet]
      exact same
  | loadFile files path =>
      rw [after, toOption_getD_of_not_isOk quiet]
      exact same
  | step => exact (kept_sameSetup e).step same
  | run limit => exact (kept_sameSetup e).run same
  | runFrame => exact (kept_sameSetup e).runFrame same
  | runFrames frames => exact (kept_sameSetup e).runFrames same
  | runFor seconds =>
      rcases after_runFor e seconds with none | ⟨frames, ran⟩
      · rwa [none]
      · rw [ran]
        exact (kept_sameSetup e).runFrames same
  | runHeadless steps onFault => exact (kept_sameSetup e).runHeadless same
  | press key =>
      obtain ⟨keypad, pressed⟩ := after_setKey e key (Or.inl rfl)
      rw [pressed]
      exact ⟨⟨rfl, rfl⟩, rfl, rfl⟩
  | release key =>
      obtain ⟨keypad, released⟩ := after_setKey e key (Or.inr rfl)
      rw [released]
      exact ⟨⟨rfl, rfl⟩, rfl, rfl⟩
  | write address value =>
      rw [after, Memory.write]
      cases e.machine.memory.policy.resolve address with
      | error _ => exact same
      | ok cell => exact ⟨⟨rfl, rfl⟩, rfl, rfl⟩
  | writeBytes address values => exact ⟨⟨rfl, Machine.writeBytes_policy _ _ _⟩, rfl, rfl⟩
  | setRegister r value =>
      rw [after]
      cases set : e.setRegister r value with
      | error _ => exact same
      | ok e' => exact setRegister_sameSetup set
  | restore raw => exact restore_sameSetup e raw
  | loadSnapshot files path =>
      rcases after_loadSnapshot e files path with none | ⟨raw, restored⟩
      · rwa [none]
      · rw [restored]
        exact restore_sameSetup e raw
  | stepMachine =>
      rw [after, stepMachine, traceFetch_eq]
      exact ⟨Machine.step_sameKind e.machine, rfl, rfl⟩
  | execute w => exact ⟨Machine.execute_sameKind e.machine (decode w), rfl, rfl⟩
  | reset => exact reset_sameSetup e
  -- nothing that is set up is touched by any of these
  | skip | tick | takeFrame | debug | listen | trace | resetRegisters =>
      exact ⟨⟨rfl, rfl⟩, rfl, rfl⟩

theorem afterAll_sameSetup {as : List Action} (quiet : LoadsNothing e as) :
    SameSetup e (e.afterAll as) := by
  induction as generalizing e with
  | nil => exact SameSetup.refl e
  | cons a rest ih =>
      obtain ⟨first, others⟩ := quiet
      exact (after_sameSetup first).trans (ih others)

/-! ## Loading -/

theorem loadProgram_of_fits {program : List UInt8} (h : program.length ≤ maxProgramSize) :
    e.loadProgram program = .ok { e with program := program }.reset := if_pos h

/-- What succeeds in loading resets the emulator with another program. -/
theorem after_of_loads {a : Action} (h : e.loads a = true) :
    ∃ program, e.after a = { e with program := program }.reset := by
  cases a with
  | load program =>
      by_cases fits : program.length ≤ maxProgramSize
      · refine ⟨program, ?_⟩
        rw [after, loadProgram_of_fits fits]
        rfl
      · rw [loads, loadProgram, if_neg fits] at h
        cases h
  | loadFile files path =>
      rw [after]
      rw [loads] at h
      unfold loadFile at h ⊢
      dsimp only at h ⊢
      cases read : files.read (normalPath path) with
      | error err =>
          rw [read] at h
          cases err <;> cases h
      | ok program =>
          rw [read] at h
          dsimp only at h ⊢
          by_cases fits : program.length ≤ maxProgramSize
          · rw [loadProgram_of_fits fits]
            exact ⟨program, rfl⟩
          · rw [loadProgram, if_neg fits] at h
            cases h
  | _ => cases h

/-- Kind and frequency are for life. -/
theorem afterAll_kind (e : Emulator) (as : List Action) :
    Machine.SameKind e.machine (e.afterAll as).machine ∧
      (e.afterAll as).frequency = e.frequency := by
  induction as generalizing e with
  | nil => exact ⟨⟨rfl, rfl⟩, rfl⟩
  | cons a rest ih =>
      have one : Machine.SameKind e.machine (e.after a).machine ∧
          (e.after a).frequency = e.frequency := by
        cases loads : e.loads a with
        | false =>
            have same := after_sameSetup loads
            exact ⟨same.toSameKind, same.frequency⟩
        | true =>
            obtain ⟨program, loaded⟩ := after_of_loads loads
            have same := reset_sameSetup { e with program := program }
            rw [loaded]
            exact ⟨same.toSameKind, same.frequency⟩
      obtain ⟨kind, frequency⟩ := ih (e.after a)
      exact ⟨⟨kind.dialect.trans one.1.dialect, kind.policy.trans one.1.policy⟩,
        frequency.trans one.2⟩

/-! ## Renewal -/

/-- Two emulators that agree in everything but the source of random bytes, the listener of the tone
and what it was told, breakpoints, conditions and the last event, and the trace. -/
def Renewed (n e : Emulator) : Prop :=
  ∃ random listening told breakpoints conditions last tracing trace,
    e = { n with
      machine := { n.machine with
        random := random
        timers := { n.machine.timers with listening := listening, told := told } }
      debugger := { n.debugger with
        breakpoints := breakpoints
        conditions := conditions
        lastEvent := last }
      tracing := tracing
      trace := trace }

/-- A reset depends on nothing but what is set up. -/
theorem reset_renewed (h : SameSetup n e) : Renewed n.reset e.reset := by
  obtain ⟨⟨dialect, policy⟩, frequency, program⟩ := h
  obtain ⟨told, timers⟩ := e.machine.timers.reset_frame
  obtain ⟨_, timers'⟩ := n.machine.timers.reset_frame
  refine ⟨e.machine.random, e.machine.timers.listening, told, e.debugger.breakpoints,
    e.debugger.conditions, e.debugger.lastEvent, e.tracing, e.trace, ?_⟩
  unfold reset Machine.reset Machine.resetRegisters Memory.reset
  rw [dialect, policy, frequency, program, timers, timers']
  rfl

/-! ## Builds -/

/-- What a new emulator is made with, apart from its random bytes. -/
structure Build where
  dialect : Dialect
  policy : Policy
  frequency : Nat

def Build.new (b : Build) (random : Random.Source) : Emulator :=
  ofMachine (.fresh b.dialect b.policy random) b.frequency

def build (e : Emulator) : Build := ⟨e.machine.dialect, e.machine.memory.policy, e.frequency⟩

theorem sameKind_new (e : Emulator) (random : Random.Source) :
    Machine.SameKind (e.build.new random).machine e.machine := by
  refine ⟨rfl, ?_⟩
  show e.machine.memory.policy = e.build.policy
  rfl

/-- What an emulator was made with can still be seen. -/
theorem Reachable.made (r : Reachable e) :
    ∃ random before, e = (e.build.new random).afterAll before := by
  obtain ⟨b, random, before, rfl⟩ :
      ∃ (b : Build) (random : Random.Source) (before : List Action),
        e = (b.new random).afterAll before := by
    induction r with
    | new dialect policy random _ => exact ⟨⟨dialect, policy, _⟩, random, [], rfl⟩
    | after a _ ih =>
        obtain ⟨b, random, before, rfl⟩ := ih
        refine ⟨b, random, before ++ [a], ?_⟩
        rw [afterAll, afterAll, List.foldl_append]
        rfl
  obtain ⟨⟨dialect, policy⟩, frequency⟩ := afterAll_kind (b.new random) before
  refine ⟨random, before, ?_⟩
  rw [build, dialect, policy, frequency]
  rfl

/-- **Loads and resets forget.** When an emulator loads a program that fits, memory, registers,
stack, screen, timers, keypad, break request, counts and credit are as in a new emulator of the
same build with the same program, whatever a host has done before. So they are after any later
reset, whatever was done in between, unless another program was loaded. A program that does not
fit is refused, and the emulator is as before, with the program that a reset loads. -/
theorem loads_and_resets_forget (r : Reachable e) (program : List UInt8) :
    (∃ random before, e = (e.build.new random).afterAll before) ∧
    (program.length ≤ 3584 → ∀ random, ∃ e' n, e.loadProgram program = .ok e' ∧
      (e.build.new random).loadProgram program = .ok n ∧ Renewed n e' ∧
      ∀ later, LoadsNothing e' later → Renewed n (e'.afterAll later).reset) ∧
    (3584 < program.length →
      e.loadProgram program = .error (.tooLarge program.length) ∧
        e.after (.load program) = e) := by
  have size : maxProgramSize = 3584 := rfl
  rw [← size]
  refine ⟨r.made, ?_, ?_⟩
  · intro fits random
    have start : SameSetup { e.build.new random with program := program }
        { e with program := program } := ⟨sameKind_new e random, rfl, rfl⟩
    refine ⟨_, _, loadProgram_of_fits fits, loadProgram_of_fits fits, reset_renewed start, ?_⟩
    intro later quiet
    exact reset_renewed ((start.trans (reset_sameSetup _)).trans (afterAll_sameSetup quiet))
  · intro large
    have refused : e.loadProgram program = .error (.tooLarge program.length) :=
      if_neg (Nat.not_le.mpr large)
    refine ⟨refused, ?_⟩
    rw [after, refused]
    rfl

/-- Waiting for a key behind a first frame, with a request to break. -/
def interrupted : Emulator :=
  ((loaded .fault 40 [0xF0, 0x0A]).afterAll [.runFrame, .step, .tick, .debug .requestBreak])

/-- A program that writes over itself, a load in vain and half a snapshot. -/
def disorder : List Action :=
  [.step, .write 0x200 7, .load (List.replicate 3585 0), .press (.number 5), .restore snapshotMark,
    .runFrame]

theorem interrupted_forgets :
    interrupted.machine.waitingForKey ∧ interrupted.credit = 40 ∧
      ∃ e' n, interrupted.loadProgram [0x12, 0x00] = .ok e' ∧
        (interrupted.build.new (.constant 1)).loadProgram [0x12, 0x00] = .ok n ∧ Renewed n e' ∧
        LoadsNothing e' disorder ∧ Renewed n (e'.afterAll disorder).reset := by
  have reachable : Reachable interrupted :=
    ((((reachable_loaded (by decide) (by decide)).after .runFrame).after .step).after
      .tick).after (.debug .requestBreak)
  obtain ⟨-, loads, -⟩ := loads_and_resets_forget reachable [0x12, 0x00]
  obtain ⟨e', n, loaded, new, renewed, resets⟩ := loads (by decide) (.constant 1)
  have quiet : LoadsNothing e' disorder := by
    have there := (loadProgram_of_fits (by decide)).symm.trans loaded
    rw [← Except.ok.inj there]
    decide +kernel
  exact ⟨by decide +kernel, by decide +kernel, e', n, loaded, new, renewed, quiet,
    resets disorder quiet⟩

end Emulator

end Chip8
