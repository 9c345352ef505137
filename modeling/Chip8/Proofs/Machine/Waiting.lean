import Chip8.Proofs.Machine.Footprint

/-!
# Waiting for a key

A wait is the same instruction once more: the program counter is back on it, and nothing is
changed but that the machine waits and which instruction was the last one. No other operation
leaves a machine waiting. With a key down the instruction takes the lowest one and is done.
-/

namespace Chip8

/-! ## The lowest key -/

namespace Keypad

variable {k : Keypad}

theorem first?_of_released (h : ∀ key, k.down.get key = false) : k.first? = none := by
  rw [first?, List.find?_eq_none]
  intro key _
  rw [h key]
  decide

theorem first?_of_held (h : ∃ key, k.down.get key = true) :
    ∃ key, k.first? = some key ∧ k.down.get key = true ∧
      ∀ lower, lower < key → k.down.get lower = false := by
  obtain ⟨held, down⟩ := h
  have found : k.first?.isSome := by
    rw [first?, List.find?_isSome]
    exact ⟨held, List.mem_finRange held, down⟩
  obtain ⟨key, first⟩ := Option.isSome_iff_exists.mp found
  obtain ⟨here, place, _, there, before⟩ := List.find?_eq_some_iff_getElem.mp first
  refine ⟨key, first, here, ?_⟩
  intro lower less
  -- keys stand in a list at the places of their numbers
  have position : place = key.val := by
    rw [← there, List.getElem_finRange]
    rfl
  have up := before lower.val (position ▸ less)
  rw [List.getElem_finRange, Bool.not_eq_true'] at up
  exact up

end Keypad

namespace Machine

variable {m m' : Machine} {i : Instruction}

/-! ## The step of a wait -/

/-- With no key down the machine waits. -/
theorem step_of_released (h : m.current? = some i) (op : i.op = .waitKey)
    (released : m.keypad.first? = none) :
    m.step = ({ m with waitingForKey := true, lastInstruction := some i }, .ok i) := by
  have keypad : m.begun.keypad.first? = none := released
  have back : m.pc + 2 - 2 = m.pc := UInt16.add_sub_cancel m.pc 2
  have waits : m.begun.effect i = ({ m with waitingForKey := true }, .ok ()) := by
    rw [Machine.effect, op]
    dsimp only
    rw [waitKey, keypad]
    simp only [done, begun, back]
  exact step_of_executed h waits

/-- The lowest key that is down is taken. -/
theorem step_of_held (h : m.current? = some i) (op : i.op = .waitKey) {key : Fin 16}
    (held : m.keypad.first? = some key) :
    m.step =
      ({ m with
          v := Table.put m.v i.x (UInt8.ofNat key)
          pc := m.pc + 2
          waitingForKey := false
          lastInstruction := some i }, .ok i) := by
  have keypad : m.begun.keypad.first? = some key := held
  have takes : m.begun.effect i = (m.begun.setV i.x (UInt8.ofNat key), .ok ()) := by
    rw [Machine.effect, op]
    dsimp only
    rw [waitKey, keypad]
    rfl
  exact step_of_executed h takes

/-- A step that ends in waiting has the next step try the same instruction again. -/
theorem step_waiting (h : m.step = (m', .ok i)) (waiting : m'.waitingForKey) :
    m' = { m with waitingForKey := true, lastInstruction := some i } := by
  obtain ⟨r, here, executed, rfl⟩ := executed_of_step h
  by_cases op : i.op = .waitKey
  · cases key : m.keypad.first? with
    | none =>
        rw [step_of_released here op key] at h
        exact (congrArg Prod.fst h).symm
    | some k =>
        rw [step_of_held here op key] at h
        have taken := congrArg (fun s => s.1.waitingForKey) h
        cases taken.trans waiting
  · have same := (effect_footprint m.begun i).waiting op
    rw [executed] at same
    cases same.symm.trans waiting

end Machine

end Chip8
