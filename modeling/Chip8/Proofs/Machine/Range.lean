import Chip8.Proofs.Machine.Footprint

/-!
# Numbers in range

Bytes and words are in range by their types. Two parts of a machine are plain integers all the
same: return addresses and the delay timer. `InRange` says that they are words and a byte, and
that the stack has no more entries than there is room for. Instructions and ticks keep it, and
so does an instruction that is refused.
-/

namespace Chip8

namespace Machine

structure InRange (m : Machine) : Prop where
  depth : m.stack.length ≤ stackDepth
  addresses : ∀ a ∈ m.stack, 0 ≤ a ∧ a < 65536
  delay : 0 ≤ m.timers.delay ∧ m.timers.delay < 256

/-! ## Instructions -/

namespace InRange

variable {m : Machine}

/-- Only the stack and the delay timer matter. -/
theorem of_eq {m' : Machine} (h : m.InRange) (hs : m'.stack = m.stack)
    (hd : m'.timers.delay = m.timers.delay) : m'.InRange :=
  ⟨hs ▸ h.depth, hs ▸ h.addresses, hd ▸ h.delay⟩

theorem fresh (dialect : Dialect) (policy : Policy) (random : Random.Source) :
    (Machine.fresh dialect policy random).InRange :=
  ⟨Nat.zero_le _, fun _ ha => (nomatch ha), (by decide : (0 : Int) ≤ 0 ∧ (0 : Int) < 256)⟩

theorem resetRegisters (h : m.InRange) : m.resetRegisters.InRange :=
  ⟨Nat.zero_le _, fun _ ha => (nomatch ha), h.delay⟩

theorem reset (m : Machine) (program : List UInt8) : (m.reset program).InRange := by
  refine ⟨Nat.zero_le _, fun _ ha => (nomatch ha), ?_⟩
  show 0 ≤ (Timers.tell _ _).delay ∧ (Timers.tell _ _).delay < 256
  rw [Timers.tell_delay]
  exact ⟨Int.le_refl 0, show (0 : Int) < 256 by decide⟩

theorem call (h : m.InRange) (address : UInt16) : (m.call address).1.InRange := by
  unfold Machine.call
  split
  · exact h
  · rename_i room
    refine ⟨?_, ?_, h.delay⟩
    · show m.stack.length + 1 ≤ stackDepth
      omega
    · intro a ha
      rcases List.mem_cons.mp ha with rfl | ha
      · have := m.pc.toNat_lt
        omega
      · exact h.addresses a ha

theorem ret (h : m.InRange) : m.ret.1.InRange := by
  unfold Machine.ret
  split
  · exact h
  · rename_i address rest hs
    have depth := h.depth
    have addresses := h.addresses
    rw [hs] at depth addresses
    refine ⟨?_, fun a ha => addresses a (List.mem_cons_of_mem _ ha), h.delay⟩
    exact Nat.le_trans (Nat.le_succ _) depth

theorem setDelay (h : m.InRange) (value : Int) :
    { m with timers := m.timers.setDelay value }.InRange :=
  ⟨h.depth, h.addresses, Int.emod_nonneg value (by decide), Int.emod_lt_of_pos value (by decide)⟩

theorem setSound (h : m.InRange) (value : Int) :
    { m with timers := m.timers.setSound value }.InRange :=
  h.of_eq rfl (Timers.tell_delay _ _)

/-- Whether it is refused or not, an instruction leaves all numbers in range. -/
theorem effect (h : m.InRange) (i : Instruction) : (m.effect i).1.InRange := by
  by_cases owner : i.op = .call ∨ i.op = .ret ∨ i.op = .setDelay ∨ i.op = .setSound
  · unfold Machine.effect
    rcases owner with op | op | op | op <;> rw [op]
    · exact h.call _
    · exact h.ret
    · exact h.setDelay _
    · exact h.setSound _
  · -- no other operation owns the stack or a timer
    simp only [not_or] at owner
    obtain ⟨call, ret, delay, sound⟩ := owner
    have touched := effect_footprint m i
    exact h.of_eq (touched.stack call ret) (congrArg Timers.delay (touched.timers delay sound))

theorem execute (h : m.InRange) (i : Instruction) : (m.execute i).1.InRange := by
  have begun : { m with waitingForKey := false }.InRange := h.of_eq rfl rfl
  exact begun.effect i

theorem tick (h : m.InRange) : m.tick.InRange := by
  have delay := h.delay
  refine ⟨h.depth, h.addresses, ?_⟩
  show 0 ≤ (Timers.tell _ _).delay ∧ (Timers.tell _ _).delay < 256
  rw [Timers.tell_delay]
  dsimp only
  split
  · omega
  · omega

end InRange

end Machine

end Chip8
