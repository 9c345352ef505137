import Chip8.Proofs.Emulator.Host
import Chip8.Proofs.Machine.Footprint
import Chip8.Proofs.Snapshot.Rollback

/-!
# Listening to the tone

Everything that sets the sound timer compares the tone before with the tone behind it, and tells the
listener if they differ. So whoever listens from the beginning is told of a start first, then of an
end, and so on by turns, and what was said last is how the tone is (`Timers.Followed`). What a host
does in between makes no difference. When it restores a snapshot in vain the sound timer is set
twice, and both times the comparison is made.
-/

namespace Chip8

open Chip8.Debug Chip8.Snapshot

namespace Timers

/-- The listener was told of starts and ends by turns, of a start first, and the tone is as it was
told last. -/
structure Followed (t : Timers) : Prop where
  listens : t.listening = true
  byTurns : t.told.reverse = (List.range t.told.length).map fun k => k % 2 == 0
  last : t.toneOn = t.told.headD false

/-- What was said last depends on how often something was said. -/
theorem headD_of_byTurns {told : List Bool}
    (h : told.reverse = (List.range told.length).map fun k => k % 2 == 0) :
    told.headD false = !(told.length % 2 == 0) := by
  cases told with
  | nil => rfl
  | cons b rest =>
      rw [List.reverse_cons, List.length_cons, List.range_succ, List.map_append] at h
      obtain ⟨-, latest⟩ := List.append_inj' h rfl
      have turn : b = (rest.length % 2 == 0) := List.singleton_inj.mp latest
      show b = !((rest.length + 1) % 2 == 0)
      rw [turn, Bool.eq_iff_iff]
      simp only [beq_iff_eq, Bool.not_eq_true', beq_eq_false_iff_ne]
      omega

namespace Followed

variable {t t' : Timers}

/-- Telling about a change, if there was one. -/
theorem tell (h : t.Followed) (listens : t'.listening = t.listening) (told : t'.told = t.told) :
    (t'.tell t.toneOn).Followed := by
  by_cases same : t.toneOn = t'.toneOn
  · have quiet : t'.tell t.toneOn = t' := if_neg fun changed => changed.2 same
    rw [quiet]
    refine ⟨listens.trans h.listens, ?_, ?_⟩
    · rw [told]
      exact h.byTurns
    · rw [told, ← same]
      exact h.last
  · have loud : t'.tell t.toneOn = { t' with told := t'.toneOn :: t'.told } :=
      if_pos ⟨listens.trans h.listens, same⟩
    -- the tone was as it was told last, so now it is the other one's turn
    have turn : t'.toneOn = (t.told.length % 2 == 0) := by
      rw [h.last, headD_of_byTurns h.byTurns] at same
      exact (Bool.not_inj (Bool.eq_not.mpr same)).symm
    rw [loud]
    refine ⟨listens.trans h.listens, ?_, rfl⟩
    show (t'.toneOn :: t'.told).reverse =
      (List.range (t'.told.length + 1)).map fun k => k % 2 == 0
    rw [turn, told, List.reverse_cons, h.byTurns, List.range_succ, List.map_append]
    rfl

theorem delay (h : t.Followed) (delay : Int) : { t with delay := delay }.Followed :=
  ⟨h.listens, h.byTurns, h.last⟩

theorem setSound (h : t.Followed) (value : Int) : (t.setSound value).Followed := h.tell rfl rfl

theorem tick (h : t.Followed) : t.tick.Followed := h.tell rfl rfl

theorem reset (h : t.Followed) : t.reset.Followed := h.tell rfl rfl

theorem restore (h : t.Followed) (data : List Int) (offset : Int) :
    (t.restore data offset).1.Followed := by
  unfold Timers.restore
  split
  · exact h
  · dsimp only
    split
    · exact h.delay _
    · exact (h.delay _).setSound _

end Followed

end Timers

/-! ## Machines -/

namespace Machine

variable {m : Machine}

/-- However far restoring gets, the timers are restored as they are by themselves, or not yet. -/
theorem restoreParts_timers (m : Machine) (data : List Int) (offset : Int) :
    (m.restoreParts data offset).1.timers = m.timers ∨
      ∃ place, (m.restoreParts data offset).1.timers = (m.timers.restore data place).1 := by
  obtain ⟨v, index, pc, stack, waiting, registers⟩ := restoreRegisters_frame m data offset
  unfold restoreParts
  rcases hr : m.restoreRegisters data offset with ⟨m₁, e | size⟩
  · rw [hr] at registers
    cases registers
    exact Or.inl rfl
  · rw [hr] at registers
    cases registers
    refine Or.inr ⟨offset + size, ?_⟩
    dsimp only
    rcases m.timers.restore data (offset + size) with ⟨timers, e | _⟩
    · rfl
    · dsimp only
      split
      · rfl
      · split
        · rfl
        · rfl

theorem followed_restore (h : m.timers.Followed) (raw : List UInt8) :
    (m.restore raw).1.timers.Followed := by
  refine restore_keeps (P := fun m => m.timers.Followed) h raw fun m data offset before => ?_
  rcases restoreParts_timers m data offset with same | ⟨place, restored⟩
  · rw [same]
    exact before
  · rw [restored]
    exact before.restore data place

theorem followed_effect (h : m.timers.Followed) (i : Instruction) :
    (m.effect i).1.timers.Followed := by
  by_cases delay : i.op = .setDelay
  · rw [effect, delay]
    exact h.delay _
  · by_cases sound : i.op = .setSound
    · rw [effect, sound]
      exact h.setSound _
    · rw [(effect_footprint m i).timers delay sound]
      exact h

end Machine

/-! ## Hosts -/

/-- What a host does with the timers by themselves. -/
inductive TimersAction
  | setDelay (value : Int)
  | setSound (value : Int)
  | tick
  | reset
  | restore (data : List Int) (offset : Int)

def Timers.after (t : Timers) : TimersAction → Timers
  | .setDelay value => t.setDelay value
  | .setSound value => t.setSound value
  | .tick => t.tick
  | .reset => t.reset
  | .restore data offset => (t.restore data offset).1

theorem Timers.Followed.after {t : Timers} (h : t.Followed) (a : TimersAction) :
    (t.after a).Followed := by
  cases a with
  | setDelay value => exact h.delay _
  | setSound value => exact h.setSound value
  | tick => exact h.tick
  | reset => exact h.reset
  | restore data offset => exact h.restore data offset

namespace Emulator

/-- What a host does with an emulator or behind its back with the timers. -/
inductive Operation
  | whole (a : Action)
  | timers (a : TimersAction)

def operate (e : Emulator) : Operation → Emulator
  | .whole a => e.after a
  | .timers a => e.withMachine { e.machine with timers := e.machine.timers.after a }

def operateAll (e : Emulator) (ops : List Operation) : Emulator := ops.foldl operate e

/-- A new emulator with a listener to the tone. -/
def listened (dialect : Dialect) (policy : Policy) (random : Random.Source) (frequency : Nat) :
    Emulator :=
  (ofMachine (.fresh dialect policy random) frequency).after (.listen true)

variable {e : Emulator}

theorem kept_followed : MachineKept fun m => m.timers.Followed where
  execute {m} i h := Machine.followed_effect (m := { m with waitingForKey := false }) h i
  tick h := h.tick
  reset _ h := h.reset
  resetRegisters h := h
  setDelay _ h := h.delay _
  setSound value h := h.setSound value
  restore raw h := Machine.followed_restore h raw
  write _ _ _ _ _ _ h := h
  screen _ h := h

theorem followed_operate (h : e.machine.timers.Followed) {op : Operation}
    (stays : op ≠ .whole (.listen false)) : (e.operate op).machine.timers.Followed := by
  cases op with
  | whole a =>
      refine kept_followed.after h a ?_
      rintro (_ | _) rfl
      · exact absurd rfl stays
      · exact ⟨rfl, h.byTurns, h.last⟩
  | timers a => exact h.after a

theorem followed_operateAll (h : e.machine.timers.Followed) {ops : List Operation}
    (stays : .whole (.listen false) ∉ ops) : (e.operateAll ops).machine.timers.Followed := by
  induction ops generalizing e with
  | nil => exact h
  | cons op rest ih =>
      have first : op ≠ .whole (.listen false) :=
        fun same => stays (List.mem_cons.mpr (Or.inl same.symm))
      exact ih (followed_operate h first) fun later => stays (List.mem_cons_of_mem _ later)

/-- **Listeners follow the tone.** Whoever listens from the beginning and stays is told of a start,
an end, a start and so on by turns, whatever a host does; and behind every operation the tone is as
the listener was told last, and off if it was told nothing yet. -/
theorem listeners_follow_tone (dialect : Dialect) (policy : Policy) (random : Random.Source)
    (frequency : Nat) {ops : List Operation} (stays : .whole (.listen false) ∉ ops) :
    ((listened dialect policy random frequency).operateAll ops).machine.timers.Followed := by
  have start : (listened dialect policy random frequency).machine.timers.Followed :=
    ⟨rfl, rfl, rfl⟩
  exact followed_operateAll start stays

/-- A snapshot that breaks off behind the timers, with both of them at zero. -/
def brokenOff : List UInt8 :=
  snapshotMark ++ List.replicate 16 0 ++ [0x00, 0x00, 0x02, 0x00, 0x00] ++ [0x00, 0x00]

/-- A tone of two ticks, then one that a host starts, breaks off in vain and ends. -/
def tune : List Operation :=
  [.whole (.load [0x60, 0x02, 0xF0, 0x18]), .whole .step, .whole .step, .whole .tick, .whole .tick,
    .timers (.setSound 256), .whole (.setRegister .sound 257), .whole (.restore brokenOff),
    .timers .reset]

theorem tune_followed :
    ((listened .modern .wrap (.constant 0) 700).operateAll tune).machine.timers.Followed ∧
      ((listened .modern .wrap (.constant 0) 700).operateAll tune).machine.timers.told.reverse =
        [true, false, true, false, true, false] := by
  have stays : .whole (.listen false) ∉ tune := by simp [tune]
  exact ⟨listeners_follow_tone .modern .wrap (.constant 0) 700 stays, by decide +kernel⟩

end Emulator

end Chip8
