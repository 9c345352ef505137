import Chip8.Proofs.Debug.Check
import Chip8.Proofs.Emulator.Host
import Chip8.Proofs.Emulator.Trace

/-!
# Breakpoints of a run

A run stops before the instruction at a breakpoint, unless it starts there. Every frame is a run of
its own. So a call of several frames passes a breakpoint when a frame happens to start on it, and
only then: `stopsAtBreakpoints_iff` says so for any state, any breakpoints and any number of frames.

`Ran` is what the run of one frame does, and carries the induction along its instructions. The
induction along the frames is on what was executed and fetched by then.
-/

namespace Chip8

open Chip8.Debug Chip8.Text

namespace Emulator

variable {e : Emulator} {executed left : Nat}

/-! ## One turn -/

theorem stopBefore_reason {event : Event} (h : e.stopBefore executed = some event) :
    event.reason = .interrupt ∨ event.reason = .breakpoint ∨ event.reason = .condition :=
  Debugger.check_reason (Option.eq_some_of_filter_eq_some h)

/-- The instruction that a run starts with is executed although there is a breakpoint. -/
theorem stopBefore_zero (h : e.debugger.breakRequested = false)
    (here : e.machine.pc ∈ e.debugger.breakpoints) : e.stopBefore 0 = none := by
  rw [stopBefore, Debugger.check_of_mem h here]
  rfl

/-- Everywhere else a breakpoint stops the run. -/
theorem stopBefore_pos (h : e.debugger.breakRequested = false) (pos : 0 < executed)
    (here : e.machine.pc ∈ e.debugger.breakpoints) :
    ∃ event, e.stopBefore executed = some event ∧ event.reason = .breakpoint ∧
      event.address = some (e.machine.pc.toNat : Int) := by
  rw [stopBefore, Debugger.check_of_mem h here, Option.filter_some, if_pos]
  · exact ⟨_, rfl, rfl, rfl⟩
  · rw [stops, beq_false_of_ne (by omega)]
    rfl

/-! ## The run of a frame -/

/-- What the run of a frame does that has executed some instructions and has `left` to go: it ends
in an outcome `o` and fetches instructions at the addresses `l`. -/
structure Ran (e : Emulator) (executed left : Nat) (o : Event × Emulator) (l : List UInt16) :
    Prop where
  breakpoints : o.2.debugger.breakpoints = e.debugger.breakpoints
  settings : o.2.tracing = e.tracing ∧ o.2.frequency = e.frequency ∧ o.2.credit = e.credit
  addresses : o.2.addresses = e.addresses ++ l
  /-- The run starts at the program counter. -/
  first : ∀ a ∈ l.head?, a = e.machine.pc
  /-- No instruction but the first of the frame is at a breakpoint. -/
  passed : ∀ a ∈ l.tail, a ∉ e.debugger.breakpoints
  resumed : 0 < executed → ∀ a ∈ l, a ∉ e.debugger.breakpoints
  counted : executed ≤ o.1.cycles ∧ o.1.cycles ≤ executed + l.length
  ended : o.1.reason = .maxSteps ∧ o.1.cycles = executed + left ∨
    o.1.reason ≠ .maxSteps ∧ o.1.reason ≠ .step ∧ o.1.cycles < executed + left
  unmoved : o.1.cycles = executed → o.2.machine.pc = e.machine.pc
  /-- A run that did not start at a breakpoint stops there. -/
  stopped : 0 < o.1.cycles → o.1.cycles < executed + left →
    o.2.machine.pc ∈ e.debugger.breakpoints →
    o.1.reason = .breakpoint ∧ o.1.address = some (o.2.machine.pc.toNat : Int)
  noRequest : (left = 0 → e.debugger.breakRequested = false) → o.2.debugger.breakRequested = false
  /-- A run that starts at a breakpoint tries the instruction there. -/
  tried : 0 < left → executed = 0 → e.debugger.breakRequested = false →
    e.machine.pc ∈ e.debugger.breakpoints → l ≠ [] ∨ o.1.reason = .fault ∧ o.1.cycles = 0
  idle : left = 0 → l = []

/-- A run that has nothing to do. -/
theorem ran_zero (e : Emulator) (executed : Nat) (limit : Int) :
    Ran e executed 0 (e.runOn limit false executed 0) [] where
  breakpoints := rfl
  settings := ⟨rfl, rfl, rfl⟩
  addresses := (List.append_nil _).symm
  first _ ha := nomatch ha
  passed _ ha := nomatch ha
  resumed _ _ ha := nomatch ha
  counted := ⟨Nat.le_refl _, Nat.le_refl _⟩
  ended := Or.inl ⟨rfl, rfl⟩
  unmoved _ := rfl
  stopped _ less := absurd less (Nat.lt_irrefl _)
  noRequest none := none rfl
  tried none := absurd none (Nat.lt_irrefl _)
  idle _ := rfl

/-- A run that is stopped before its next instruction. -/
theorem ran_stopped {event : Event} (h : e.stopBefore executed = some event)
    (request : 0 < executed → e.debugger.breakRequested = false) :
    Ran e executed (left + 1) (e.checked.stopped event executed) [] where
  breakpoints := Debugger.check_breakpoints _ _
  settings := ⟨rfl, rfl, rfl⟩
  addresses := (List.append_nil _).symm
  first _ ha := nomatch ha
  passed _ ha := nomatch ha
  resumed _ _ ha := nomatch ha
  counted := ⟨Nat.le_refl _, Nat.le_refl _⟩
  ended := by
    refine Or.inr ⟨?_, ?_, by show executed < executed + (left + 1); omega⟩
    · show event.reason ≠ .maxSteps
      rcases stopBefore_reason h with r | r | r <;> rw [r] <;> decide
    · show event.reason ≠ .step
      rcases stopBefore_reason h with r | r | r <;> rw [r] <;> decide
  unmoved _ := rfl
  stopped pos _ here := by
    obtain ⟨found, stop, reason, address⟩ := stopBefore_pos (request pos) pos here
    obtain rfl : event = found := Option.some.inj (h.symm.trans stop)
    exact ⟨reason, address⟩
  noRequest _ := Debugger.check_breakRequested _ _
  tried _ zero none here := by
    rw [zero, stopBefore_zero none here] at h
    cases h
  idle none := by omega

/-- Where a run that has executed something goes on, there is no breakpoint. -/
theorem not_mem_of_stopBefore (h : e.stopBefore executed = none) (pos : 0 < executed)
    (request : 0 < executed → e.debugger.breakRequested = false) :
    e.machine.pc ∉ e.debugger.breakpoints := by
  intro here
  obtain ⟨_, stop, -⟩ := stopBefore_pos (request pos) pos here
  rw [h] at stop
  cases stop

/-- A run whose next instruction fails. -/
theorem ran_failed (h : e.stopBefore executed = none) (tracing : e.tracing = true)
    (request : 0 < executed → e.debugger.breakRequested = false)
    (failed : e.checked.step.1.reason = .fault) :
    Ran e executed (left + 1) (e.checked.step.2.stopped e.checked.step.1 executed)
      (if e.machine.fetch.toOption.isSome then [e.machine.pc] else []) := by
  have tried := addresses_step (e := e.checked) tracing
  obtain ⟨_, _, _, unmoved⟩ := (step_again failed).1
  have here (a : UInt16) (ha : a ∈ if e.machine.fetch.toOption.isSome then [e.machine.pc] else []) :
      a = e.machine.pc := by
    split at ha
    · exact List.mem_singleton.mp ha
    · cases ha
  exact {
    breakpoints := by
      show e.checked.step.2.debugger.breakpoints = _
      rw [unmoved]
      exact Debugger.check_breakpoints _ _
    settings := by
      show e.checked.step.2.tracing = _ ∧ e.checked.step.2.frequency = _ ∧
        e.checked.step.2.credit = _
      rw [unmoved]
      exact ⟨rfl, rfl, rfl⟩
    addresses := tried
    first := fun a ha => here a (List.mem_of_mem_head? ha)
    passed := by
      intro a ha
      split at ha <;> cases ha
    resumed := fun pos a ha => here a ha ▸ not_mem_of_stopBefore h pos request
    counted := ⟨Nat.le_refl _, Nat.le_add_right _ _⟩
    ended := by
      refine Or.inr ⟨?_, ?_, by show executed < executed + (left + 1); omega⟩
      · show e.checked.step.1.reason ≠ _
        rw [failed]
        decide
      · show e.checked.step.1.reason ≠ _
        rw [failed]
        decide
    unmoved := fun _ => by
      show e.checked.step.2.machine.pc = _
      rw [unmoved]
      rfl
    stopped := fun pos _ here => by
      have still : e.checked.step.2.machine.pc = e.machine.pc := by
        rw [unmoved]
        rfl
      exact absurd (still ▸ here) (not_mem_of_stopBefore h pos request)
    noRequest := fun _ => by
      show e.checked.step.2.debugger.breakRequested = _
      rw [unmoved]
      exact Debugger.check_breakRequested _ _
    tried := fun _ zero _ _ => Or.inr ⟨failed, zero⟩
    idle := fun none => by omega }

/-- A step that does not fail fetches its instruction and leaves the debugger alone. -/
theorem step_of_reason_ne_fault (h : e.step.1.reason ≠ .fault) :
    e.machine.fetch.toOption.isSome ∧ e.step.2.debugger = e.debugger ∧
      e.step.2.tracing = e.tracing ∧ e.step.2.frequency = e.frequency ∧
      e.step.2.credit = e.credit := by
  rcases hs : e.machine.step with ⟨m, f | i⟩
  · rw [step_of_error hs] at h
    exact absurd rfl h
  · rw [step_of_ok hs]
    cases hf : e.machine.fetch with
    | error f =>
        rw [Machine.step_of_fetch_error hf] at hs
        cases hs
    | ok w => exact ⟨rfl, rfl, rfl, rfl, rfl⟩

/-- A run that goes on behind its next instruction. -/
theorem ran_succ {o : Event × Emulator} {l : List UInt16} (h : e.stopBefore executed = none)
    (tracing : e.tracing = true) (request : 0 < executed → e.debugger.breakRequested = false)
    (went : e.checked.step.1.reason ≠ .fault)
    (rest : Ran e.checked.step.2 (executed + 1) left o l) :
    Ran e executed (left + 1) o (e.machine.pc :: l) := by
  obtain ⟨fetched, debugger, tracing', frequency, credit⟩ := step_of_reason_ne_fault went
  have tried := addresses_step (e := e.checked) tracing
  rw [if_pos fetched] at tried
  have breakpoints : e.checked.step.2.debugger.breakpoints = e.debugger.breakpoints := by
    rw [debugger]
    exact Debugger.check_breakpoints _ _
  have later : ∀ a ∈ l, a ∉ e.debugger.breakpoints :=
    breakpoints ▸ rest.resumed (Nat.succ_pos executed)
  have counted := rest.counted
  exact {
    breakpoints := rest.breakpoints.trans breakpoints
    settings := by
      obtain ⟨t, f, c⟩ := rest.settings
      exact ⟨t.trans tracing', f.trans frequency, c.trans credit⟩
    addresses := by
      rw [rest.addresses, tried, List.append_assoc]
      rfl
    first := fun a ha => (Option.some.inj ha).symm
    passed := later
    resumed := by
      intro pos a ha
      rcases List.mem_cons.mp ha with rfl | ha
      · exact not_mem_of_stopBefore h pos request
      · exact later a ha
    counted := by
      rw [List.length_cons]
      omega
    ended := by
      rcases rest.ended with ⟨reason, all⟩ | ⟨reason, reason', some⟩
      · exact Or.inl ⟨reason, by omega⟩
      · exact Or.inr ⟨reason, reason', by omega⟩
    unmoved := fun same => by omega
    stopped := fun pos less here => rest.stopped pos (by omega) (breakpoints ▸ here)
    noRequest := fun _ => rest.noRequest fun _ => debugger ▸ Debugger.check_breakRequested _ _
    tried := fun _ _ _ _ => Or.inl (List.cons_ne_nil _ _)
    idle := fun none => by omega }

/-- The run of a frame, by induction on the instructions it has to go. -/
theorem ran_runOn (tracing : e.tracing = true)
    (request : 0 < executed → e.debugger.breakRequested = false) (limit : Int) :
    ∃ l, Ran e executed left (e.runOn limit false executed left) l := by
  induction left generalizing e executed with
  | zero => exact ⟨[], ran_zero e executed limit⟩
  | succ left ih =>
      -- the three ways a turn can end are the three lemmas above
      rw [runOn_succ]
      cases h : e.stopBefore executed with
      | some event => exact ⟨[], ran_stopped h request⟩
      | none =>
          dsimp only
          by_cases failed : e.checked.step.1.reason = .fault
          · rw [if_pos failed]
            exact ⟨_, ran_failed h tracing request failed⟩
          · rw [if_neg failed, if_neg (by simp)]
            obtain ⟨-, debugger, traced, -⟩ := step_of_reason_ne_fault failed
            have request' : 0 < executed + 1 → e.checked.step.2.debugger.breakRequested = false :=
              fun _ => debugger ▸ Debugger.check_breakRequested _ _
            obtain ⟨l, rest⟩ := ih (e := e.checked.step.2) (traced.trans tracing) request'
            exact ⟨_, ran_succ h tracing request failed rest⟩

/-! ## The frames of a call -/

/-- The instructions that the frames of a call owe together. -/
def owedFor (e : Emulator) : Nat → Nat
  | 0 => 0
  | frames + 1 => (e.credit + (frames + 1) * e.frequency) / frameRate

theorem owedFor_le_succ (e : Emulator) (frames : Nat) :
    e.owedFor frames ≤ e.owedFor (frames + 1) := by
  cases frames with
  | zero => exact Nat.zero_le _
  | succ frames =>
      refine Nat.div_le_div_right (Nat.add_le_add_left (Nat.mul_le_mul_right _ ?_) _)
      omega

/-- The outcome `p` of a call that goes on with a frame whose run has the outcome `o'`. -/
structure Continued (o o' p : Event × Emulator) : Prop where
  cycles : p.1.cycles = o.1.cycles + o'.1.cycles
  pc : p.2.machine.pc = o'.2.machine.pc
  breakpoints : p.2.debugger.breakpoints = o'.2.debugger.breakpoints
  request : p.2.debugger.breakRequested = o'.2.debugger.breakRequested
  settings : p.2.tracing = o'.2.tracing ∧ p.2.frequency = o'.2.frequency ∧
    p.2.credit = o'.2.credit
  addresses : p.2.addresses = o'.2.addresses
  ended : o'.1.reason = .maxSteps ∧ p.1.reason = .step ∨
    o'.1.reason ≠ .maxSteps ∧ p.1.reason = o'.1.reason ∧ p.1.address = o'.1.address

/-- The next frame of a call is a run of its own. -/
theorem nextFrame_ran {o : Event × Emulator} (going : o.1.reason = .step)
    (tracing : o.2.tracing = true) :
    ∃ o' l, Ran o.2.frameStart 0 o.2.owed o' l ∧ Continued o o' (nextFrame o) := by
  obtain ⟨l, ran⟩ : ∃ l, Ran o.2.frameStart 0 o.2.owed o.2.frameRun l :=
    ran_runOn (e := o.2.frameStart) tracing (fun pos => absurd pos (Nat.lt_irrefl 0)) _
  refine ⟨o.2.frameRun, l, ran, ?_⟩
  rw [nextFrame, if_neg (not_not_intro going), runFrame_eq]
  rcases ran.ended with ⟨full, -⟩ | ⟨early, notStep, -⟩
  · have step : (o.2.frameRun.2.tick.completed o.2.frameRun.1.cycles,
        o.2.frameRun.2.tick).1.reason = .step := rfl
    rw [if_neg (not_not_intro full), if_neg (not_not_intro step)]
    exact ⟨rfl, rfl, rfl, rfl, ⟨rfl, rfl, rfl⟩, rfl, Or.inl ⟨full, rfl⟩⟩
  · rw [if_pos early, if_pos notStep]
    exact ⟨rfl, rfl, rfl, rfl, ⟨rfl, rfl, rfl⟩, rfl, Or.inr ⟨early, rfl, rfl⟩⟩

/-- A frame that goes on to the next one has executed all that it owed; any other has not. -/
theorem Continued.ended_iff {o o' p : Event × Emulator} {l : List UInt16}
    (next : Continued o o' p) (ran : Ran o.2.frameStart 0 o.2.owed o' l) :
    p.1.reason = .step ∧ o'.1.cycles = o.2.owed ∨
      p.1.reason ≠ .step ∧ o'.1.cycles < o.2.owed ∧ p.1.reason = o'.1.reason ∧
        p.1.address = o'.1.address := by
  rcases ran.ended with ⟨full, all⟩ | ⟨early, notStep, less⟩
  · rcases next.ended with ⟨-, step⟩ | ⟨early, -⟩
    · exact Or.inl ⟨step, by omega⟩
    · exact absurd full early
  · rcases next.ended with ⟨full, -⟩ | ⟨-, reason, address⟩
    · exact absurd full early
    · exact Or.inr ⟨reason ▸ notStep, by omega, reason, address⟩

theorem nextFrame_of_ended {o : Event × Emulator} (ended : o.1.reason ≠ .step) :
    nextFrame o = o := if_pos ended

/-- What is known about a call of some frames in any case. Its emulator started with an empty
trace. -/
structure Called (e : Emulator) (frames : Nat) (o : Event × Emulator) : Prop where
  breakpoints : o.2.debugger.breakpoints = e.debugger.breakpoints
  tracing : o.2.tracing = true
  frequency : o.2.frequency = e.frequency
  ended : o.1.reason = .step ∧ o.1.cycles = e.owedFor frames ∧
      frameRate * o.1.cycles + o.2.credit = e.credit + frames * e.frequency ∨
    o.1.reason ≠ .step ∧ o.1.cycles < e.owedFor frames
  counted : o.1.cycles ≤ o.2.addresses.length
  idle : o.1.reason = .step → o.1.cycles = 0 → o.2.addresses = []
  noRequest : o.1.reason = .step → 0 < o.1.cycles → o.2.debugger.breakRequested = false

/-- After the frames of a call the next one owes what is missing. -/
theorem Called.owed {frames : Nat} {o : Event × Emulator} (c : Called e frames o)
    (going : o.1.reason = .step) :
    e.owedFor (frames + 1) = o.1.cycles + o.2.owed ∧
      frameRate * (o.1.cycles + o.2.owed) + o.2.frameStart.credit =
        e.credit + (frames + 1) * e.frequency := by
  rcases c.ended with ⟨-, -, credit⟩ | ⟨ended, -⟩
  · rw [owedFor, Emulator.owed, frameStart, c.frequency]
    have more : (frames + 1) * e.frequency = frames * e.frequency + e.frequency :=
      Nat.succ_mul _ _
    unfold frameRate at *
    dsimp only
    omega
  · exact absurd going ended

theorem called (tracing : e.tracing = true) (fresh : e.addresses = []) (frames : Nat) :
    Called e frames (e.runFrames frames) := by
  induction frames with
  | zero =>
      exact ⟨rfl, tracing, rfl, Or.inl ⟨rfl, rfl, by simp [runFrames, runFramesOn, completed]⟩,
        Nat.zero_le _, fun _ _ => fresh, fun _ pos => absurd pos (Nat.lt_irrefl 0)⟩
  | succ frames ih =>
      rw [runFrames_succ]
      by_cases going : (e.runFrames frames).1.reason = .step
      · obtain ⟨owed, credit⟩ := ih.owed going
        obtain ⟨o', l, ran, next⟩ := nextFrame_ran going ih.tracing
        obtain ⟨tracing', frequency, credit'⟩ := ran.settings
        obtain ⟨tracing'', frequency', credit''⟩ := next.settings
        have counted := ran.counted
        have counted' := ih.counted
        have request (pos : 0 < (e.runFrames frames).1.cycles) := ih.noRequest going pos
        exact {
          breakpoints := next.breakpoints.trans (ran.breakpoints.trans ih.breakpoints)
          tracing := tracing''.trans (tracing'.trans ih.tracing)
          frequency := frequency'.trans (frequency.trans ih.frequency)
          ended := by
            rw [next.cycles, owed, credit'', credit']
            rcases next.ended_iff ran with ⟨step, all⟩ | ⟨early, less, -⟩
            · rw [all]
              exact Or.inl ⟨step, rfl, credit⟩
            · exact Or.inr ⟨early, by omega⟩
          counted := by
            rw [next.cycles, next.addresses, ran.addresses, List.length_append]
            show _ ≤ (e.runFrames frames).2.addresses.length + l.length
            omega
          idle := fun step none => by
            rw [next.cycles] at none
            rcases next.ended_iff ran with ⟨-, all⟩ | ⟨early, -⟩
            · rw [next.addresses, ran.addresses, ran.idle (by omega), List.append_nil]
              exact ih.idle going (by omega)
            · exact absurd step early
          noRequest := fun step pos => by
            rw [next.cycles] at pos
            rw [next.request]
            refine ran.noRequest fun nothing => request ?_
            rw [ran.idle nothing, List.length_nil] at counted
            omega }
      · rw [nextFrame_of_ended going]
        have less := owedFor_le_succ e frames
        rcases ih.ended with ⟨step, -⟩ | ⟨-, early⟩
        · exact absurd step going
        · exact ⟨ih.breakpoints, ih.tracing, ih.frequency, Or.inr ⟨going, by omega⟩, ih.counted,
            fun step => absurd step going, fun step => absurd step going⟩

/-- A call that has ended does not go on. -/
theorem runFrames_of_ended {j k : Nat} (h : j ≤ k) (ended : (e.runFrames j).1.reason ≠ .step) :
    e.runFrames k = e.runFrames j := by
  induction h with
  | refl => rfl
  | step _ ih => rw [runFrames_succ, ih, nextFrame_of_ended ended]

/-- What was fetched stays. -/
theorem addresses_prefix (tracing : e.tracing = true) (fresh : e.addresses = []) {j k : Nat}
    (h : j ≤ k) : (e.runFrames j).2.addresses <+: (e.runFrames k).2.addresses := by
  induction h with
  | refl => exact List.prefix_refl _
  | @step k _ ih =>
      refine ih.trans ?_
      rw [runFrames_succ]
      by_cases going : (e.runFrames k).1.reason = .step
      · obtain ⟨_, l, ran, next⟩ := nextFrame_ran going (called tracing fresh k).tracing
        rw [next.addresses, ran.addresses]
        exact List.prefix_append _ l
      · exact (nextFrame_of_ended going).symm ▸ List.prefix_refl _

/-! ## Breakpoints that are missed -/

/-- No instruction of the call is at a breakpoint, but the first may be; and where the call gets to
a breakpoint with something left to execute, it stops and says so. -/
structure StopsAtBreakpoints (e : Emulator) (frames : Nat) : Prop where
  passed : ∀ a ∈ (e.watched.runFrames frames).2.addresses.tail, a ∉ e.debugger.breakpoints
  stopped : 0 < (e.runFrames frames).1.cycles → (e.runFrames frames).1.cycles < e.owedFor frames →
    (e.runFrames frames).2.machine.pc ∈ e.debugger.breakpoints →
    (e.runFrames frames).1.reason = .breakpoint ∧
      (e.runFrames frames).1.address = some ((e.runFrames frames).2.machine.pc.toNat : Int)

/-- The frame behind the first `j` frames of a call starts at a breakpoint. It is not the first
that executes something, and owes an instruction. -/
def MissesAt (e : Emulator) (j : Nat) : Prop :=
  (e.runFrames j).1.reason = .step ∧ 0 < (e.runFrames j).1.cycles ∧
    0 < (e.runFrames j).2.owed ∧ (e.runFrames j).2.machine.pc ∈ e.debugger.breakpoints

/-- Behind the first instruction nothing was fetched at a breakpoint. -/
def AvoidsBreakpoints (e : Emulator) (o : Event × Emulator) : Prop :=
  ∀ a ∈ o.2.addresses.tail, a ∉ e.debugger.breakpoints

/-- A call that has ended early at a breakpoint has ended there because of it. -/
def ReportsBreakpoint (e : Emulator) (o : Event × Emulator) : Prop :=
  o.1.reason ≠ .step → 0 < o.1.cycles → o.2.machine.pc ∈ e.debugger.breakpoints →
    o.1.reason = .breakpoint ∧ o.1.address = some (o.2.machine.pc.toNat : Int)

theorem avoidsBreakpoints_succ (tracing : e.tracing = true) (fresh : e.addresses = []) {k : Nat}
    (free : ¬ e.MissesAt k) (ih : e.AvoidsBreakpoints (e.runFrames k)) :
    e.AvoidsBreakpoints (e.runFrames (k + 1 : Nat)) := by
  rw [runFrames_succ]
  unfold AvoidsBreakpoints at *
  by_cases going : (e.runFrames k).1.reason = .step
  · have c := called tracing fresh k
    obtain ⟨_, l, ran, next⟩ := nextFrame_ran going c.tracing
    have passed := ran.passed
    have breakpoints : (e.runFrames k).2.frameStart.debugger.breakpoints = _ := c.breakpoints
    rw [breakpoints] at passed
    rw [next.addresses, ran.addresses]
    show ∀ a ∈ ((e.runFrames k).2.addresses ++ l).tail, _
    cases before : (e.runFrames k).2.addresses with
    | nil => exact passed
    | cons b bs =>
        rw [before] at ih
        intro a ha
        rcases List.mem_append.mp ha with ha | ha
        · exact ih a ha
        · have pos : 0 < (e.runFrames k).1.cycles := by
            refine Nat.pos_of_ne_zero fun none => ?_
            rw [c.idle going none] at before
            cases before
          have owes : 0 < (e.runFrames k).2.owed := by
            refine Nat.pos_of_ne_zero fun none => ?_
            rw [ran.idle none] at ha
            cases ha
          cases l with
          | nil => cases ha
          | cons x l =>
              rcases List.mem_cons.mp ha with rfl | ha
              · -- the frame starts with this instruction, and not on a breakpoint
                rw [ran.first _ rfl]
                exact fun here => free ⟨going, pos, owes, here⟩
              · exact passed a ha
  · rw [nextFrame_of_ended going]
    exact ih

theorem reportsBreakpoint_succ (tracing : e.tracing = true) (fresh : e.addresses = []) {k : Nat}
    (free : ¬ e.MissesAt k) (ih : e.ReportsBreakpoint (e.runFrames k)) :
    e.ReportsBreakpoint (e.runFrames (k + 1 : Nat)) := by
  rw [runFrames_succ]
  by_cases going : (e.runFrames k).1.reason = .step
  · have c := called tracing fresh k
    obtain ⟨o', l, ran, next⟩ := nextFrame_ran going c.tracing
    intro early pos here
    rcases next.ended_iff ran with ⟨step, -⟩ | ⟨-, less, reason, address⟩
    · exact absurd step early
    · rw [next.cycles] at pos
      rw [next.pc] at here ⊢
      have stopped := ran.stopped
      have breakpoints : (e.runFrames k).2.frameStart.debugger.breakpoints = _ := c.breakpoints
      rw [breakpoints] at stopped
      rw [reason, address]
      refine stopped (Nat.pos_of_ne_zero fun none => ?_) (by omega) here
      -- nothing of the frame was executed, so it has started on the breakpoint
      refine free ⟨going, by omega, by omega, ?_⟩
      rw [ran.unmoved none] at here
      exact here
  · rw [nextFrame_of_ended going]
    exact ih

/-- A call none of whose frames starts at a breakpoint stops at every breakpoint. -/
theorem stops_of_free (tracing : e.tracing = true) (fresh : e.addresses = []) {k : Nat}
    (free : ∀ j < k, ¬ e.MissesAt j) :
    e.AvoidsBreakpoints (e.runFrames k) ∧ e.ReportsBreakpoint (e.runFrames k) := by
  induction k with
  | zero =>
      have nothing : (e.runFrames (0 : Nat)).2.addresses = [] := fresh
      rw [AvoidsBreakpoints, nothing]
      exact ⟨fun _ ha => (nomatch ha), fun early => absurd rfl early⟩
  | succ k ih =>
      obtain ⟨avoids, reports⟩ := ih fun j less => free j (by omega)
      have here := free k (Nat.lt_succ_self k)
      exact ⟨avoidsBreakpoints_succ tracing fresh here avoids,
        reportsBreakpoint_succ tracing fresh here reports⟩

/-- A frame that starts at a breakpoint tries the instruction there, and then either that
instruction was fetched or the call has failed there instead of stopping. -/
theorem not_reports_of_misses (tracing : e.tracing = true) (fresh : e.addresses = []) {j k : Nat}
    (less : j < k) (misses : e.MissesAt j) (avoids : e.AvoidsBreakpoints (e.runFrames k)) :
    ¬ e.ReportsBreakpoint (e.runFrames k) := by
  obtain ⟨going, pos, owes, here⟩ := misses
  have c := called tracing fresh j
  obtain ⟨o', l, ran, next⟩ := nextFrame_ran going c.tracing
  have breakpoints : (e.runFrames j).2.frameStart.debugger.breakpoints = _ := c.breakpoints
  have tried := ran.tried owes rfl (c.noRequest going pos)
  rw [breakpoints] at tried
  rcases tried here with some | ⟨failed, none⟩
  · -- the instruction at the breakpoint was fetched, and others before it
    exfalso
    have later := addresses_prefix tracing fresh less
    rw [runFrames_succ, next.addresses, ran.addresses] at later
    obtain ⟨t, whole⟩ := later
    rw [AvoidsBreakpoints, ← whole] at avoids
    cases l with
    | nil => exact some rfl
    | cons a l =>
        obtain rfl : a = (e.runFrames j).2.machine.pc := ran.first a rfl
        cases before : (e.runFrames j).2.frameStart.addresses with
        | nil =>
            have counted : _ ≤ (e.runFrames j).2.frameStart.addresses.length := c.counted
            rw [before] at counted
            exact absurd counted (Nat.not_le_of_lt pos)
        | cons b bs =>
            rw [before] at avoids
            refine avoids _ ?_ here
            exact List.mem_append_left t (List.mem_append_right bs List.mem_cons_self)
  · -- it could not even be fetched, so the call ends with that fault and stays so
    rcases next.ended_iff ran with ⟨-, all⟩ | ⟨early, -, reason, -⟩
    · omega
    · have after : e.runFrames k = nextFrame (e.runFrames j) := by
        rw [← runFrames_succ] at early ⊢
        exact runFrames_of_ended less early
      intro reports
      rw [after, ReportsBreakpoint, next.cycles, next.pc, ran.unmoved none, reason,
        failed] at reports
      exact absurd (reports (by decide) (by omega) here).1 (by decide)

/-- To keep a trace does not change which frames start at a breakpoint. -/
theorem missesAt_watched (e : Emulator) (j : Nat) : e.watched.MissesAt j ↔ e.MissesAt j := by
  obtain ⟨event, _, _, same⟩ := (sameButTrace_watched e).runFrames j
  unfold MissesAt
  rw [event, same]
  rfl

theorem reportsBreakpoint_watched (e : Emulator) (k : Nat) :
    e.watched.ReportsBreakpoint (e.watched.runFrames k) ↔ e.ReportsBreakpoint (e.runFrames k) := by
  obtain ⟨event, _, _, same⟩ := (sameButTrace_watched e).runFrames k
  unfold ReportsBreakpoint
  rw [event, same]
  rfl

/-- A call has something left to execute exactly if it ended early. -/
theorem stopsAtBreakpoints_iff_avoids (e : Emulator) (frames : Nat) :
    StopsAtBreakpoints e frames ↔
      e.watched.AvoidsBreakpoints (e.watched.runFrames frames) ∧
        e.watched.ReportsBreakpoint (e.watched.runFrames frames) := by
  have ended := (called (e := e.watched) rfl rfl frames).ended
  obtain ⟨event, -⟩ := (sameButTrace_watched e).runFrames frames
  rw [event] at ended
  rw [reportsBreakpoint_watched]
  constructor
  · rintro ⟨passed, stopped⟩
    refine ⟨passed, fun early pos here => ?_⟩
    rcases ended with ⟨step, -⟩ | ⟨-, some⟩
    · exact absurd step early
    · exact stopped pos some here
  · rintro ⟨avoids, reports⟩
    refine ⟨avoids, fun pos some here => ?_⟩
    rcases ended with ⟨-, all, -⟩ | ⟨early, -⟩
    · exact absurd some (by rw [all]; exact Nat.lt_irrefl _)
    · exact reports early pos here

/-- **Breakpoints and frames.** A call of some frames stops at breakpoints as it should exactly if
none of its frames, but for the first that executes something, starts at one with an instruction
to execute. A call for a duration is a call of so many frames. -/
theorem stopsAtBreakpoints_iff (e : Emulator) :
    (∀ frames : Nat, StopsAtBreakpoints e frames ↔ ∀ j < frames, ¬ e.MissesAt j) ∧
      ∀ seconds, e.runFor seconds = (framesIn seconds).map fun frames =>
        e.runFrames (frames.toNat : Nat) := by
  refine ⟨fun frames => ?_, fun seconds => ?_⟩
  · rw [stopsAtBreakpoints_iff_avoids]
    constructor
    · rintro ⟨avoids, reports⟩ j less misses
      exact not_reports_of_misses rfl rfl less ((missesAt_watched e j).mpr misses) avoids reports
    · intro free
      refine stops_of_free rfl rfl fun j less misses => ?_
      exact free j less ((missesAt_watched e j).mp misses)
  · unfold runFor
    cases framesIn seconds with
    | error _ => rfl
    | ok frames =>
        show Except.ok (e.runFramesOn 0 frames.toNat) =
          .ok (e.runFramesOn 0 (frames.toNat : Int).toNat)
        rw [Int.toNat_natCast]

/-- A program with an instruction in every frame, and a breakpoint at its second one. -/
def breakpointAtFrame : Emulator :=
  (loaded .wrap 60 [0x70, 0x01, 0x70, 0x01, 0x12, 0x00]).after (.debug (.addBreakpoint 0x202))

/-- The second frame starts at the breakpoint, and passes it. -/
theorem breakpointAtFrame_passed : ¬ StopsAtBreakpoints breakpointAtFrame 3 := by
  intro stops
  exact stops.passed 0x202 (by decide +kernel) (by decide +kernel)

end Emulator

end Chip8
