import Chip8.Proofs.Emulator.Countdown
import Chip8.Proofs.Machine.Changes

/-!
# Effects

What a step changes is within the bounds of its instruction (`Changes`), and the one thing that is
taken from outside of the machine is a random byte. Runs draw these bytes in the order of the
source: whatever a host does, the results of all random instructions that are executed, one after
the other (`drawsOf`), come from the first bytes of the source, and the source is left at the next
byte (`Fed`). Loops are told by the moves they make, headless runs as well as the others.
-/

namespace Chip8

open Chip8.Debug

/-! ## Bytes of a source -/

namespace Random.Source

/-- The byte that comes after so many others. -/
def byteAt : Source → Nat → UInt8
  | s, 0 => s.next.1
  | s, k + 1 => s.next.2.byteAt k

/-- The source after so many bytes. -/
def drop : Nat → Source → Source
  | 0, s => s
  | n + 1, s => s.next.2.drop n

theorem drop_add (s : Source) (n k : Nat) : s.drop (n + k) = (s.drop n).drop k := by
  induction n generalizing s with
  | zero => rw [Nat.zero_add, drop]
  | succ n ih => rw [Nat.succ_add, drop, ih, drop]

theorem byteAt_drop (s : Source) (n k : Nat) : (s.drop n).byteAt k = s.byteAt (n + k) := by
  induction n generalizing s with
  | zero => rw [Nat.zero_add, drop]
  | succ n ih => rw [Nat.succ_add, drop, ih, byteAt]

/-- A list is played over and over. -/
theorem byteAt_loop (l : Loop) (k : Nat) :
    l.bytes[(l.position + k) % l.bytes.size]? = some ((loop l).byteAt k) := by
  induction k generalizing l with
  | zero =>
      rw [Nat.add_zero, Nat.mod_eq_of_lt l.position_lt]
      exact Array.getElem?_eq_getElem l.position_lt
  | succ k ih =>
      have later := ih l.next.2
      have place : (l.next.2.position + k) % l.next.2.bytes.size =
          (l.position + (k + 1)) % l.bytes.size := by
        show ((l.position + 1) % l.bytes.size + k) % l.bytes.size = _
        rw [Nat.mod_add_mod, Nat.add_assoc, Nat.add_comm 1]
      rw [place] at later
      exact later

end Random.Source

/-! ## What one step changes -/

namespace Machine

variable {m m' : Machine} {i : Instruction}

/-- What executing an instruction changed, at most. -/
structure Changes (m : Machine) (i : Instruction) (m' : Machine) : Prop where
  keypad : m'.keypad = m.keypad
  cells : ∀ c, (∀ k : Nat, k < i.storedCells → c ≠ Policy.cellOf (m.index.toNat + k)) →
    m'.memory.cells.get c = m.memory.cells.get c
  screen : i.op ≠ .cls → i.op ≠ .draw → m'.screen = m.screen
  stack : i.op ≠ .call → i.op ≠ .ret → m'.stack = m.stack
  delay : i.op ≠ .setDelay → m'.timers.delay = m.timers.delay
  sound : i.op ≠ .setSound → m'.timers.sound = m.timers.sound
  index : ¬ m.SetsIndex i → m'.index = m.index
  registers : ∀ r, ¬ i.Results r → ¬ (r = flag ∧ m.SetsFlag i) → m'.v.get r = m.v.get r
  random : m'.random = if i.op = .rnd then m.random.next.2 else m.random

theorem step_changes (h : m.step = (m', .ok i)) : Changes m i m' := by
  obtain ⟨r, -, executed, rfl⟩ := executed_of_step h
  obtain rfl : (m.begun.effect i).1 = r := congrArg Prod.fst executed
  have footprint := effect_footprint m.begun i
  exact
    { keypad := footprint.keypad
      cells := fun c outside => effect_cell (m := m.begun) outside
      screen := footprint.screen
      stack := footprint.stack
      delay := fun other => value_effect_other (c := .delay) other
      sound := fun other => UInt8.toNat_inj.mp
        (Int.ofNat_inj.mp (value_effect_other (c := .sound) other))
      index := fun stays => effect_index (m := m.begun) stays
      registers := fun r noResult noFlag => effect_register (m := m.begun) noResult noFlag
      random := effect_random m.begun i }

end Machine

/-! ## What is drawn -/

/-- A random instruction that was executed, and what its register held then. -/
structure Draw where
  instruction : Instruction
  result : UInt8
  deriving DecidableEq, Repr

/-- The random instructions among some that were executed. -/
def Machine.drawsOf (m' : Machine) : Except Fault Instruction → List Draw
  | .ok i => if i.op = .rnd then [⟨i, m'.v.get i.x⟩] else []
  | .error _ => []

/-- So many draws were made one after the other: each result is the next byte of the source under
the mask of its instruction, and nothing else was taken from the source. -/
structure Fed (s : Random.Source) (ds : List Draw) (s' : Random.Source) : Prop where
  bytes : ∀ (k : Nat) (d : Draw), ds[k]? = some d → d.result = s.byteAt k &&& d.instruction.nn
  rest : s' = s.drop ds.length

namespace Fed

variable {s s' s'' : Random.Source} {ds ds' : List Draw}

theorem none (s : Random.Source) : Fed s [] s := ⟨nofun, rfl⟩

theorem single {i : Instruction} {b : UInt8} (h : b = s.next.1 &&& i.nn) :
    Fed s [⟨i, b⟩] s.next.2 := by
  refine ⟨?_, rfl⟩
  rintro (_ | k) d here
  · obtain rfl : Draw.mk i b = d := Option.some.inj here
    exact h
  · cases here

theorem append (first : Fed s ds s') (second : Fed s' ds' s'') : Fed s (ds ++ ds') s'' := by
  have middle := first.rest
  refine ⟨?_, ?_⟩
  · intro k d here
    rcases Nat.lt_or_ge k ds.length with before | behind
    · rw [List.getElem?_append_left before] at here
      exact first.bytes k d here
    · rw [List.getElem?_append_right behind] at here
      have later := second.bytes _ d here
      rwa [middle, Random.Source.byteAt_drop, Nat.add_sub_cancel' behind] at later
  · rw [second.rest, middle, ← Random.Source.drop_add, List.length_append]

end Fed

namespace Machine

variable {m m' : Machine} {i : Instruction}

theorem fed_effect (m : Machine) (i : Instruction) :
    Fed m.random ((m.effect i).1.drawsOf ((m.effect i).2.map fun _ => i))
      (m.effect i).1.random := by
  rw [effect_random]
  by_cases rnd : i.op = .rnd
  · rw [if_pos rnd, effect_of_rnd rnd]
    show Fed _ (if i.op = .rnd then _ else _) _
    rw [if_pos rnd]
    exact Fed.single (Table.get_put_self _ _ _)
  · rw [if_neg rnd]
    cases (m.effect i).2 with
    | error f => exact Fed.none m.random
    | ok =>
        show Fed _ (if i.op = .rnd then _ else _) _
        rw [if_neg rnd]
        exact Fed.none m.random

theorem fed_step (m : Machine) : Fed m.random (m.step.1.drawsOf m.step.2) m.step.1.random := by
  rcases h : m.step with ⟨m', f | i⟩
  · rw [step_error_unchanged h]
    exact Fed.none m.random
  · obtain ⟨r, -, executed, rfl⟩ := executed_of_step h
    have fed := fed_effect m.begun i
    rw [executed] at fed
    exact fed

end Machine

namespace Emulator

variable {e : Emulator}

/-! ## Moves of loops -/

/-- The moves of a headless run. -/
def headlessMoves (steps : Int) (onFault : OnFault) (executed : Nat) (e : Emulator) :
    Nat → List Move
  | 0 => []
  | frames + 1 =>
    if steps ≤ executed then []
    else e.frameMoves ++
      match e.runFrame.1.fault, onFault with
      | none, _ =>
        headlessMoves steps onFault (executed + e.runFrame.1.cycles) e.runFrame.2 frames
      | some _, .halt => []
      | some _, .skip =>
        .skip :: headlessMoves steps onFault (executed + e.runFrame.1.cycles + 1)
          e.runFrame.2.skipInstruction frames

/-- The moves of an action that goes step by step. -/
def moves (e : Emulator) : Action → List Move
  | .step => [.step]
  | .run limit => e.runMoves true 0 limit.toNat
  | .runFrame => e.frameMoves
  | .runFrames frames => e.framesMoves 0 frames.toNat
  | .runFor seconds => e.callMoves (.runFor seconds)
  | .runHeadless steps onFault => e.headlessMoves steps onFault 0 (e.headlessFrames steps)
  | _ => []

theorem afterMoves_headlessMoves (e : Emulator) (steps : Int) (onFault : OnFault)
    (executed frames : Nat) (skipped : List Fault) :
    e.afterMoves (headlessMoves steps onFault executed e frames) =
      (headlessOn steps onFault executed skipped e frames).emulator := by
  induction frames generalizing e executed skipped with
  | zero =>
      rw [headlessOn]
      split <;> rfl
  | succ frames ih =>
      unfold headlessMoves
      rw [headlessOn]
      by_cases reached : steps ≤ executed
      · rw [if_pos reached, if_pos reached]
        rfl
      · rw [if_neg reached, if_neg reached, afterMoves_append, afterMoves_frameMoves]
        dsimp only
        cases e.runFrame.1.fault with
        | none => exact ih e.runFrame.2 _ skipped
        | some f =>
            cases onFault with
            | halt => rfl
            | skip => exact ih e.runFrame.2.skipInstruction _ (f :: skipped)

/-! ## Draws of runs -/

/-- The draws of a move. -/
def moveDraws (e : Emulator) : Move → List Draw
  | .step => e.machine.step.1.drawsOf e.machine.step.2
  | _ => []

/-- The draws of moves one after the other. -/
def movesDraws : Emulator → List Move → List Draw
  | _, [] => []
  | e, a :: rest => e.moveDraws a ++ movesDraws (e.move a) rest

/-- The draws of an action. An instruction may be executed by the machine alone. -/
def draws (e : Emulator) : Action → List Draw
  | .stepMachine => e.moveDraws .step
  | .execute w =>
    (e.machine.execute (decode w)).1.drawsOf
      ((e.machine.execute (decode w)).2.map fun _ => decode w)
  | a => e.movesDraws (e.moves a)

/-- The emulator after actions one after the other. -/
def afterActions (e : Emulator) (as : List Action) : Emulator := as.foldl after e

/-- All draws of actions one after the other, in the order in which they are made. -/
def drawsOf : Emulator → List Action → List Draw
  | _, [] => []
  | e, a :: rest => e.draws a ++ drawsOf (e.after a) rest

theorem fed_move (e : Emulator) (a : Move) :
    Fed e.machine.random (e.moveDraws a) (e.move a).machine.random := by
  cases a with
  | step =>
      show Fed _ _ e.step.2.machine.random
      rw [step_machine]
      exact e.machine.fed_step
  | tick | skip | setKey | setCells | note | owe => exact Fed.none _

theorem fed_moves (e : Emulator) (ms : List Move) :
    Fed e.machine.random (e.movesDraws ms) (e.afterMoves ms).machine.random := by
  induction ms generalizing e with
  | nil => exact Fed.none _
  | cons a rest ih => exact (e.fed_move a).append (ih (e.move a))

theorem fed_of_moves {ms : List Move} {e' : Emulator} (h : e.afterMoves ms = e') :
    Fed e.machine.random (e.movesDraws ms) e'.machine.random := h ▸ e.fed_moves ms

theorem fed_of_kept {e' : Emulator} (h : e'.machine.random = e.machine.random) :
    Fed e.machine.random [] e'.machine.random := by
  rw [h]
  exact Fed.none _

theorem loadProgram_random (e : Emulator) (program : List UInt8) :
    ((e.loadProgram program).toOption.getD e).machine.random = e.machine.random := by
  unfold loadProgram
  split <;> rfl

theorem setRegister_random (e : Emulator) (r : Register) (value : Int) :
    ((e.setRegister r value).toOption.getD e).machine.random = e.machine.random := by
  unfold setRegister
  cases r with
  | v r =>
      dsimp only
      split <;> rfl
  | index | pc | delay | sound | stackPointer => rfl

theorem restore_random (e : Emulator) (raw : List UInt8) :
    (e.restore raw).1.machine.random = e.machine.random := by
  obtain ⟨_, _, _, _, _, _, _, _, _, _, restored⟩ := Machine.restore_overwrites e.machine raw
  show (e.machine.restore raw).1.random = e.machine.random
  rw [restored]

/-- An action draws what it makes of the next bytes, and nothing else is taken from the source. -/
theorem fed_action (e : Emulator) (a : Action) :
    Fed e.machine.random (e.draws a) (e.after a).machine.random := by
  cases a with
  | step => exact fed_of_moves rfl
  | run limit => exact fed_of_moves (afterMoves_runMoves e limit true 0 limit.toNat)
  | runFrame => exact fed_of_moves e.afterMoves_frameMoves
  | runFrames frames => exact fed_of_moves (e.afterMoves_framesMoves 0 frames.toNat)
  | runFor seconds => exact fed_of_moves (e.afterMoves_callMoves (.runFor seconds))
  | runHeadless steps onFault =>
      exact fed_of_moves (e.afterMoves_headlessMoves steps onFault 0 _ [])
  | stepMachine =>
      rw [after, stepMachine, traceFetch_eq]
      exact e.machine.fed_step
  | execute w => exact Machine.fed_effect { e.machine with waitingForKey := false } (decode w)
  | load program => exact fed_of_kept (e.loadProgram_random program)
  | loadFile files path =>
      rcases after_loadFile e files path with same | ⟨program, loaded⟩
      · exact fed_of_kept (by rw [same])
      · exact fed_of_kept (by rw [loaded]; exact e.loadProgram_random program)
  | press key =>
      obtain ⟨keypad, pressed⟩ := after_setKey e key (Or.inl rfl)
      exact fed_of_kept (by rw [pressed]; rfl)
  | release key =>
      obtain ⟨keypad, released⟩ := after_setKey e key (Or.inr rfl)
      exact fed_of_kept (by rw [released]; rfl)
  | write address value =>
      refine fed_of_kept ?_
      rw [after]
      split <;> rfl
  | setRegister r value => exact fed_of_kept (e.setRegister_random r value)
  | restore raw => exact fed_of_kept (e.restore_random raw)
  | loadSnapshot files path =>
      rcases after_loadSnapshot e files path with same | ⟨raw, restored⟩
      · exact fed_of_kept (by rw [same])
      · exact fed_of_kept (by rw [restored]; exact e.restore_random raw)
  | reset | skip | tick | writeBytes | takeFrame | debug | listen | trace | resetRegisters =>
      exact fed_of_kept rfl

theorem fed_actions (e : Emulator) (as : List Action) :
    Fed e.machine.random (e.drawsOf as) (e.afterActions as).machine.random := by
  induction as generalizing e with
  | nil => exact Fed.none _
  | cons a rest ih => exact (e.fed_action a).append (ih (e.after a))

/-- **What a step changes, and where random bytes come from.** A step that does not fail changes no
more than belongs to its instruction. Whatever is done with an emulator, the random instructions
that are executed receive the bytes of the source one after the other, and behind them the source
is left at the next byte. -/
theorem step_effects (e : Emulator) :
    (e.step.1.reason ≠ .fault →
      ∃ i, e.machine.current? = some i ∧ Machine.Changes e.machine i e.step.2.machine) ∧
    (∀ as : List Action, Fed e.machine.random (e.drawsOf as) (e.afterActions as).machine.random) ∧
    ∀ l : Random.Loop, e.machine.random = .loop l → ∀ k,
      l.bytes[(l.position + k) % l.bytes.size]? = some (e.machine.random.byteAt k) := by
  refine ⟨?_, e.fed_actions, ?_⟩
  · intro executed
    rcases h : e.machine.step with ⟨m, f | i⟩
    · exact absurd ((step_reason_eq_fault_iff e).mpr ⟨m, f, h⟩) executed
    · obtain ⟨-, here, -, -⟩ := Machine.executed_of_step h
      rw [step_machine, h]
      exact ⟨i, here, Machine.step_changes h⟩
  · intro l plays k
    rw [plays]
    exact Random.Source.byteAt_loop l k

/-- Two random instructions with one between them that fails. The source plays three bytes and goes
on with the second. -/
def dicing : Emulator :=
  (ofMachine (.fresh .modern .wrap (.loop ⟨#[0x1A, 0x2B, 0x3C], 1, by decide⟩)) 60).after
    (.load [0xC0, 0xFF, 0x00, 0x00, 0xC1, 0x0F, 0x12, 0x06])

/-- One step, a headless run that skips the failure, and one more instruction from outside. -/
def dicingActions : List Action := [.step, .runHeadless 2 .skip, .execute 0xC2F0]

theorem dicing_effects :
    dicing.drawsOf dicingActions =
        [⟨decode 0xC0FF, 0x2B⟩, ⟨decode 0xC10F, 0x3C &&& 0x0F⟩, ⟨decode 0xC2F0, 0x1A &&& 0xF0⟩] ∧
      (dicing.afterActions dicingActions).machine.random = dicing.machine.random.drop 3 ∧
      Machine.Changes dicing.machine (decode 0xC0FF) dicing.step.2.machine := by
  obtain ⟨steps, runs, -⟩ := step_effects dicing
  have drawn : dicing.drawsOf dicingActions =
      [⟨decode 0xC0FF, 0x2B⟩, ⟨decode 0xC10F, 0x3C &&& 0x0F⟩, ⟨decode 0xC2F0, 0x1A &&& 0xF0⟩] := by
    decide +kernel
  have rest := (runs dicingActions).rest
  rw [drawn] at rest
  obtain ⟨i, here, changes⟩ := steps (by decide +kernel)
  have first : dicing.machine.current? = some (decode 0xC0FF) := by decide +kernel
  obtain rfl : i = decode 0xC0FF := Option.some.inj (here.symm.trans first)
  exact ⟨drawn, rest, changes⟩

end Emulator

end Chip8
