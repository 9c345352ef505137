import Chip8.Debug.Debugger

/-!
# Looks of the debugger

Before an instruction the debugger looks at the machine. It reports a request, a breakpoint or a
condition, in this order, with the address where the machine is. All that a look does to the
debugger is to answer the request and to take down the event.
-/

namespace Chip8.Debug.Debugger

variable {d : Debugger} {m : Machine} {event : Event}

/-- A condition that was not removed holds. -/
def Met (d : Debugger) (m : Machine) : Prop := ∃ c, some c ∈ d.conditions ∧ c.holds m

theorem met_iff (d : Debugger) (m : Machine) : d.Met m ↔ (d.metCondition? m).isSome := by
  rw [metCondition?, List.find?_isSome]
  simp [Met]

instance (d : Debugger) (m : Machine) : Decidable (d.Met m) :=
  decidable_of_iff _ (met_iff d m).symm

/-! ## What a look leaves behind -/

/-- A look answers a request and takes down what it reports. -/
theorem check_records (d : Debugger) (m : Machine) :
    (d.check m).2 =
      { d with breakRequested := false, lastEvent := (d.check m).1.or d.lastEvent } := by
  unfold check
  by_cases requested : d.breakRequested
  · rw [if_pos requested]
    rfl
  · have none : d.breakRequested = false := eq_false_of_ne_true requested
    rw [if_neg requested, ← none]
    split
    · rfl
    · split <;> rfl

theorem check_frame (d : Debugger) (m : Machine) :
    ∃ last, (d.check m).2 = { d with breakRequested := false, lastEvent := last } :=
  ⟨_, check_records d m⟩

theorem check_breakpoints (d : Debugger) (m : Machine) :
    (d.check m).2.breakpoints = d.breakpoints := by
  obtain ⟨_, looked⟩ := check_frame d m
  rw [looked]

theorem check_conditions (d : Debugger) (m : Machine) : (d.check m).2.conditions = d.conditions := by
  obtain ⟨_, looked⟩ := check_frame d m
  rw [looked]

/-- No request survives the first check. -/
theorem check_breakRequested (d : Debugger) (m : Machine) :
    (d.check m).2.breakRequested = false := by
  obtain ⟨_, looked⟩ := check_frame d m
  rw [looked]

/-! ## What is reported -/

theorem check_event (h : (d.check m).1 = some event) :
    ∃ reason message, event = stopEvent reason m message ∧
      (reason = .interrupt ∨ reason = .breakpoint ∨ reason = .condition) := by
  unfold check at h
  split at h
  · cases h
    exact ⟨_, _, rfl, Or.inl rfl⟩
  · split at h
    · cases h
      exact ⟨_, _, rfl, Or.inr (Or.inl rfl)⟩
    · split at h
      · cases h
        exact ⟨_, _, rfl, Or.inr (Or.inr rfl)⟩
      · cases h

/-- What the debugger reports is one of its own three reasons. -/
theorem check_reason (h : (d.check m).1 = some event) :
    event.reason = .interrupt ∨ event.reason = .breakpoint ∨ event.reason = .condition := by
  obtain ⟨_, _, rfl, reason⟩ := check_event h
  exact reason

/-- Without a request, a breakpoint is what is reported at its address. -/
theorem check_of_mem (h : d.breakRequested = false) (here : m.pc ∈ d.breakpoints) :
    (d.check m).1 = some (stopEvent .breakpoint m s!"Breakpoint at ${Text.hexWord m.pc}") := by
  unfold check
  rw [if_neg (by rw [h]; decide), if_pos (by rwa [List.contains_iff_mem])]

/-- A breakpoint is reported at its address only, and not before a request. -/
theorem check_breakpoint (h : (d.check m).1 = some event) (reason : event.reason = .breakpoint) :
    d.breakRequested = false ∧ m.pc ∈ d.breakpoints := by
  unfold check at h
  split at h
  · cases h
    cases reason
  · rename_i noRequest
    split at h
    · rename_i here
      exact ⟨eq_false_of_ne_true noRequest, List.contains_iff_mem.mp here⟩
    · split at h
      · cases h
        cases reason
      · cases h

/-! ## Nothing to report -/

/-- There is nothing to stop for: no request, no breakpoint and no condition that was not
removed. -/
structure Quiet (d : Debugger) : Prop where
  breakRequested : d.breakRequested = false
  breakpoints : d.breakpoints = []
  conditions : ∀ c ∈ d.conditions, c = none

theorem check_of_quiet (h : d.Quiet) (m : Machine) : d.check m = (none, d) := by
  have noCondition : d.metCondition? m = none := by
    have removed : d.conditions.filterMap id = [] := List.filterMap_eq_nil_iff.mpr h.conditions
    rw [metCondition?, removed]
    rfl
  unfold check
  rw [h.breakRequested, h.breakpoints, noCondition]
  rfl

end Chip8.Debug.Debugger
