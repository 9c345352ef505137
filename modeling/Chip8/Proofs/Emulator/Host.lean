import Chip8.Emulator.Storage
import Chip8.Proofs.Emulator.Loop

/-!
# Hosts

What a host can do to an emulator, and the emulators that come of it. An action that is refused
leaves behind what it had changed by then. Looking at an emulator is not an action, unless it
leaves a trace as taking a frame does. Nor is it one to hand numbers that are no bytes to a single
part of the machine as if a snapshot had held them.

`Reachable` is every emulator that a new one of any dialect, policy, frequency and source of
random bytes becomes through any actions in any order. What actions keep is a matter of the few
things that a host can do to a machine (`UnshownKept`, `MachineKept`), of the loops, and of the
program and the trace (`ActionKept`); the cases of the actions are gone through once, in
`ActionKept.after`. A property that does not mention the machine is kept anyway (`HostKept`).
-/

namespace Chip8

open Chip8.Debug

namespace Debug

/-- What a host does with a debugger. -/
inductive DebugAction
  | addBreakpoint (address : Int)
  | removeBreakpoint (address : Int)
  | clearBreakpoints
  | addCondition (c : Condition)
  | removeCondition (number : Int)
  | clearConditions
  | requestBreak
  | clearBreakRequest
  | clearAll
  | record (e : Event)
  | check

/-- The debugger of a machine after an action. -/
def Debugger.after (d : Debugger) (m : Machine) : DebugAction → Debugger
  | .addBreakpoint address => d.addBreakpoint address
  | .removeBreakpoint address => d.removeBreakpoint address
  | .clearBreakpoints => d.clearBreakpoints
  | .addCondition c => (d.addCondition c).2
  | .removeCondition number => d.removeCondition number
  | .clearConditions => d.clearConditions
  | .requestBreak => d.requestBreak
  | .clearBreakRequest => d.clearBreakRequest
  | .clearAll => d.clearAll
  | .record e => d.record e
  | .check => (d.check m).2

end Debug

namespace Emulator

/-- What a host does with an emulator. -/
inductive Action
  | load (program : List UInt8)
  | loadFile (files : Files) (path : String)
  | reset
  | step
  | skip
  | tick
  | run (limit : Int)
  | runFrame
  | runFrames (frames : Int)
  | runFor (seconds : Float)
  | runHeadless (steps : Int) (onFault : OnFault)
  | press (key : Key)
  | release (key : Key)
  | write (address value : Int)
  | writeBytes (address : Int) (values : List Int)
  | setRegister (r : Register) (value : Int)
  | restore (raw : List UInt8)
  | loadSnapshot (files : Files) (path : String)
  | takeFrame
  | debug (a : DebugAction)
  | listen (on : Bool)
  | trace (on : Bool)
  /-- A step of the machine alone. -/
  | stepMachine
  /-- An instruction from outside of the memory. -/
  | execute (w : UInt16)
  /-- A reset of registers and stack alone. -/
  | resetRegisters

/-- The emulator after an action. -/
def after (e : Emulator) : Action → Emulator
  | .load program => (e.loadProgram program).toOption.getD e
  | .loadFile files path => (e.loadFile files path).toOption.getD e
  | .reset => e.reset
  | .step => e.step.2
  | .skip => e.skipInstruction
  | .tick => e.tick
  | .run limit => (e.run limit).2
  | .runFrame => e.runFrame.2
  | .runFrames frames => (e.runFrames frames).2
  | .runFor seconds => ((e.runFor seconds).toOption.map Prod.snd).getD e
  | .runHeadless steps onFault => (e.runHeadless steps onFault).emulator
  | .press key => (e.press key).toOption.getD e
  | .release key => (e.release key).toOption.getD e
  | .write address value =>
    match e.machine.memory.write address (byteOf value) with
    | .ok memory => e.withMachine { e.machine with memory := memory }
    | .error _ => e
  | .writeBytes address values =>
    let memory := (e.machine.memory.writeBytes address (values.map byteOf)).1
    e.withMachine { e.machine with memory := memory }
  | .setRegister r value => (e.setRegister r value).toOption.getD e
  | .restore raw => (e.restore raw).1
  | .loadSnapshot files path => (e.loadSnapshot files path).1
  | .takeFrame => e.withMachine { e.machine with screen := e.machine.screen.takeFrame.2 }
  | .debug a => { e with debugger := e.debugger.after e.machine a }
  | .listen on => e.withMachine { e.machine with timers := e.machine.timers.listen on }
  | .trace on => { e with tracing := on }
  | .stepMachine => e.stepMachine.1
  | .execute w => e.withMachine (e.machine.execute (decode w)).1
  | .resetRegisters => e.withMachine e.machine.resetRegisters

/-! ## Actions that come down to others -/

theorem after_loadFile (e : Emulator) (files : Files) (path : String) :
    e.after (.loadFile files path) = e ∨
      ∃ program, e.after (.loadFile files path) = e.after (.load program) := by
  rw [after, loadFile]
  cases files.read (normalPath path) with
  | error err => cases err <;> exact Or.inl rfl
  | ok program =>
      refine Or.inr ⟨program, ?_⟩
      rw [after]
      dsimp only
      cases e.loadProgram program <;> rfl

theorem after_runFor (e : Emulator) (seconds : Float) :
    e.after (.runFor seconds) = e ∨
      ∃ frames, e.after (.runFor seconds) = e.after (.runFrames frames) := by
  rw [after, runFor]
  cases framesIn seconds with
  | error _ => exact Or.inl rfl
  | ok frames => exact Or.inr ⟨frames, rfl⟩

theorem after_loadSnapshot (e : Emulator) (files : Files) (path : String) :
    e.after (.loadSnapshot files path) = e ∨
      ∃ raw, e.after (.loadSnapshot files path) = e.after (.restore raw) := by
  rw [after, loadSnapshot]
  split
  · exact Or.inl rfl
  · exact Or.inl rfl
  · split
    · exact Or.inl rfl
    · exact Or.inr ⟨_, rfl⟩

/-- Keys change the keypad and nothing else. -/
theorem after_setKey (e : Emulator) (key : Key) {a : Action} (h : a = .press key ∨ a = .release key) :
    ∃ keypad, e.after a = e.withMachine { e.machine with keypad := keypad } := by
  rcases h with rfl | rfl
  · rw [after, press]
    cases key.resolve with
    | error _ => exact ⟨_, rfl⟩
    | ok key => exact ⟨_, rfl⟩
  · rw [after, release]
    cases key.resolve with
    | error _ => exact ⟨_, rfl⟩
    | ok key => exact ⟨_, rfl⟩

/-- The emulators that a host can bring about. -/
inductive Reachable : Emulator → Prop
  | new (dialect : Dialect) (policy : Policy) (random : Random.Source) {frequency : Nat}
      (h : 0 < frequency) : Reachable (ofMachine (.fresh dialect policy random) frequency)
  | after {e : Emulator} (a : Action) : Reachable e → Reachable (e.after a)

theorem reachable_ofConfig {c : Config} {e : Emulator} (h : ofConfig c = .ok e) :
    Reachable e := by
  unfold ofConfig at h
  cases hr : c.random.source with
  | error err =>
      rw [hr] at h
      cases h
  | ok random =>
      rw [hr] at h
      by_cases hf : c.frequency ≤ 0
      · simp only [hf, if_true] at h
        cases h
      · cases hd : c.dialect.dialect with
        | error err =>
            simp only [hf, hd, if_false] at h
            cases h
        | ok dialect =>
            simp only [hf, hd, if_false] at h
            cases h
            exact Reachable.new dialect c.policy random (by omega)

theorem reachable_loaded {policy : Policy} {frequency : Nat} {program : List UInt8}
    (h : 0 < frequency) (fits : program.length ≤ maxProgramSize) :
    Reachable (loaded policy frequency program) := by
  have r := (Reachable.new .modern policy (.constant 0) h).after (.load program)
  rw [Emulator.after, loadProgram, if_pos fits] at r
  exact r

/-! ## What a host does to a machine -/

/-- A property of machines that is kept by whatever a host does to a machine, except for listening
to the tone and for taking a frame. -/
structure UnshownKept (P : Machine → Prop) : Prop where
  execute : ∀ {m} i, P m → P (m.execute i).1
  tick : ∀ {m}, P m → P m.tick
  reset : ∀ {m} program, P m → P (m.reset program)
  resetRegisters : ∀ {m}, P m → P m.resetRegisters
  setDelay : ∀ {m} value, P m → P { m with timers := m.timers.setDelay value }
  setSound : ∀ {m} value, P m → P { m with timers := m.timers.setSound value }
  restore : ∀ {m} raw, P m → P (m.restore raw).1
  /-- Registers, memory and keypad are written in any way. -/
  write : ∀ {m} v index pc last memory keypad, P m →
    P { m with
      v := v, index := index, pc := pc, lastInstruction := last, memory := memory,
      keypad := keypad }

/-- A property of machines that is kept by whatever a host does to a machine, except for listening
to the tone. -/
structure MachineKept (P : Machine → Prop) : Prop extends UnshownKept P where
  screen : ∀ {m} screen, P m → P { m with screen := screen }

namespace UnshownKept

variable {P : Machine → Prop} {m : Machine}

theorem setPC (k : UnshownKept P) (h : P m) (pc : UInt16) : P { m with pc := pc } :=
  k.write m.v m.index pc m.lastInstruction m.memory m.keypad h

theorem step (k : UnshownKept P) (h : P m) : P m.step.1 := by
  unfold Machine.step
  split
  · exact h
  · rename_i w _
    have executed := k.execute (decode w) (k.setPC h (m.pc + 2))
    dsimp only
    split
    · rename_i m' he
      rw [he] at executed
      exact k.write m'.v m'.index m'.pc _ m'.memory m'.keypad executed
    · rename_i m' f he
      rw [he] at executed
      exact k.setPC executed m.pc

end UnshownKept

/-- The second machine has all that a host keeps of the first one, as long as it neither listens to
the tone nor takes a frame. -/
def Unshown (m m' : Machine) : Prop := ∀ P : Machine → Prop, UnshownKept P → P m → P m'

namespace Unshown

theorem setKeypad (m : Machine) (keypad : Keypad) : Unshown m { m with keypad := keypad } :=
  fun _ k h => k.write m.v m.index m.pc m.lastInstruction m.memory keypad h

theorem setMemory (m : Machine) (memory : Memory) : Unshown m { m with memory := memory } :=
  fun _ k h => k.write m.v m.index m.pc m.lastInstruction memory m.keypad h

theorem step (m : Machine) : Unshown m m.step.1 := fun _ k h => k.step h

end Unshown

/-! ## What every host keeps -/

/-- A property of emulators that is kept by every part of a loop, and by whatever a host does to
the machine, the program and the trace, except for listening to the tone and for taking a frame. -/
structure ActionKept (P : Emulator → Prop) : Prop extends Kept P where
  machine : ∀ {e m}, Unshown e.machine m → P e → P (e.withMachine m)
  reset : ∀ {e} program, P e → P { e with program := program }.reset
  trace : ∀ {e} on trace, P e → P { e with tracing := on, trace := trace }

namespace ActionKept

variable {P : Emulator → Prop} {e : Emulator}

theorem loadProgram (k : ActionKept P) (h : P e) (program : List UInt8) :
    P ((e.loadProgram program).toOption.getD e) := by
  unfold Emulator.loadProgram
  split
  · exact k.reset program h
  · exact h

theorem restore (k : ActionKept P) (h : P e) (raw : List UInt8) : P (e.restore raw).1 :=
  k.machine (fun _ k h => k.restore raw h) h

theorem setRegister (k : ActionKept P) (h : P e) (r : Register) (value : Int) :
    P ((e.setRegister r value).toOption.getD e) := by
  unfold Emulator.setRegister
  cases r with
  | v r =>
      dsimp only
      split
      · exact k.machine (fun _ k h => k.write _ _ _ _ _ _ h) h
      · exact h
  | index | pc => exact k.machine (fun _ k h => k.write _ _ _ _ _ _ h) h
  | delay => exact k.machine (fun _ k h => k.setDelay value h) h
  | sound => exact k.machine (fun _ k h => k.setSound value h) h
  | stackPointer => exact h

/-- Every action keeps the property. Whether someone listens or looks is not for it to say. -/
theorem after (k : ActionKept P) (h : P e) (a : Action)
    (listen : ∀ on, a = .listen on → P (e.after (.listen on)))
    (frame : a = .takeFrame → P (e.after .takeFrame)) : P (e.after a) := by
  cases a with
  | load program => exact k.loadProgram h program
  | loadFile files path =>
      rcases after_loadFile e files path with same | ⟨program, loaded⟩
      · rwa [same]
      · rw [loaded]
        exact k.loadProgram h program
  | reset => exact k.reset e.program h
  | step => exact k.step h
  | skip => exact k.skip h
  | tick => exact k.tick h
  | run limit => exact k.run h
  | runFrame => exact k.runFrame h
  | runFrames frames => exact k.runFrames h
  | runFor seconds =>
      rcases after_runFor e seconds with same | ⟨frames, ran⟩
      · rwa [same]
      · rw [ran]
        exact k.runFrames h
  | runHeadless steps onFault => exact k.runHeadless h
  | press key =>
      obtain ⟨keypad, pressed⟩ := after_setKey e key (Or.inl rfl)
      rw [pressed]
      exact k.machine (.setKeypad e.machine keypad) h
  | release key =>
      obtain ⟨keypad, released⟩ := after_setKey e key (Or.inr rfl)
      rw [released]
      exact k.machine (.setKeypad e.machine keypad) h
  | write address value =>
      rw [Emulator.after]
      split
      · exact k.machine (.setMemory e.machine _) h
      · exact h
  | writeBytes address values => exact k.machine (.setMemory e.machine _) h
  | setRegister r value => exact k.setRegister h r value
  | restore raw => exact k.restore h raw
  | loadSnapshot files path =>
      rcases after_loadSnapshot e files path with same | ⟨raw, restored⟩
      · rwa [same]
      · rw [restored]
        exact k.restore h raw
  | takeFrame => exact frame rfl
  | debug a => exact k.debugger _ h
  | listen on => exact listen on rfl
  | trace on => exact k.trace on e.trace h
  | stepMachine =>
      rw [Emulator.after, stepMachine, traceFetch_eq]
      exact k.machine (.step e.machine) (k.trace e.tracing _ h)
  | execute w => exact k.machine (fun _ k h => k.execute (decode w) h) h
  | resetRegisters => exact k.machine (fun _ k h => k.resetRegisters h) h

end ActionKept

/-- A property of emulators that is kept by every part of a loop and that does not mention the
machine. -/
structure HostKept (P : Emulator → Prop) : Prop extends ActionKept P where
  anyMachine : ∀ {e} m, P e → P (e.withMachine m)
  machine := fun _ h => anyMachine _ h

namespace HostKept

variable {P : Emulator → Prop} {e : Emulator}

theorem after (k : HostKept P) (h : P e) (a : Action) : P (e.after a) :=
  k.toActionKept.after h a (fun _ _ => k.anyMachine _ h) fun _ => k.anyMachine _ h

/-- What a new emulator has and every host keeps, all emulators have that can come about. -/
theorem reachable (k : HostKept P)
    (new : ∀ machine frequency, 0 < frequency → P (ofMachine machine frequency))
    (r : Reachable e) : P e := by
  induction r with
  | new dialect policy random pos => exact new _ _ pos
  | after a _ ih => exact k.after ih a

end HostKept

/-! ## What every host keeps of a machine -/

variable {P : Machine → Prop} {e : Emulator}

namespace UnshownKept

theorem actions (k : UnshownKept P) : ActionKept fun e => P e.machine where
  step h := by
    rw [step_machine]
    exact k.step h
  tick h := k.tick h
  skip h := k.setPC h _
  debugger _ h := h
  credit _ _ h := h
  machine kept h := kept P k h
  reset program h := k.reset program h
  trace _ _ h := h

theorem after (k : UnshownKept P) (h : P e.machine) (a : Action)
    (listen : ∀ on, a = .listen on →
      P { e.machine with timers := e.machine.timers.listen on })
    (frame : a = .takeFrame → P { e.machine with screen := e.machine.screen.takeFrame.2 }) :
    P (e.after a).machine :=
  k.actions.after h a listen frame

end UnshownKept

/-- Every action keeps the property. Whether someone listens is not for it to say. -/
theorem MachineKept.after (k : MachineKept P) (h : P e.machine) (a : Action)
    (listen : ∀ on, a = .listen on →
      P { e.machine with timers := e.machine.timers.listen on }) :
    P (e.after a).machine :=
  k.toUnshownKept.after h a listen fun _ => k.screen _ h

end Emulator

end Chip8
