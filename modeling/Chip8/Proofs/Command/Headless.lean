import Chip8.Command.Play
import Chip8.Proofs.Emulator.Headless
import Chip8.Proofs.Screen.Views
import Chip8.Proofs.Text.Hex

/-!
# The runner without a window

A program of any bytes that is run without a window and without an image ends in one of two ways.
Either the machine is to blame: the program is too large, or an instruction failed that halts the
run. Or the screen is shown, one line for every row, and below it the count of instructions and the
program counter. Nothing that happens counts as an error of the runner itself.
-/

namespace Chip8

/-! ## The screen as lines -/

namespace Screen

variable {width height : Nat}

/-- One line for every row, each with its end. -/
def lines (s : Screen width height) : String :=
  String.join ((List.finRange height).map fun y => s.line y ++ "\n")

/-- With an end behind each, the lines of a text that has one at least. -/
theorem intercalate_append_newline {ls : List String} (some : ls ≠ []) :
    "\n".intercalate ls ++ "\n" = String.join (ls.map (· ++ "\n")) := by
  induction ls with
  | nil => exact absurd rfl some
  | cons first rest ih =>
      cases rest with
      | nil => rw [String.intercalate_singleton, List.map_singleton, String.join_cons, String.join_nil,
          String.append_empty]
      | cons second others =>
          rw [String.intercalate_cons_cons, List.map_cons, String.join_cons, ← ih (List.cons_ne_nil _ _),
            String.append_assoc, String.append_assoc]

end Screen

namespace Command

open Chip8.Text

/-! ## Requests -/

theorem exists_of_bind_ok {ε α β : Type} {x : Except ε α} {next : α → Except ε β} {b : β}
    (h : x >>= next = .ok b) : ∃ a, x = .ok a ∧ next a = .ok b := by
  cases x with
  | error err => cases h
  | ok a => exact ⟨a, rfl, h⟩

/-- What is kept by every element of a list is kept by all of them. -/
theorem foldlM_keeps {ε α σ : Type} {P : σ → Prop} {next : σ → α → Except ε σ}
    (kept : ∀ {s a s'}, P s → next s a = .ok s' → P s') {l : List α} {s s' : σ} (start : P s)
    (h : l.foldlM next s = .ok s') : P s' := by
  induction l generalizing s with
  | nil =>
      cases h
      exact start
  | cons a rest ih =>
      rw [List.foldlM_cons] at h
      obtain ⟨between, first, others⟩ := exists_of_bind_ok h
      exact ih (kept start first) others

theorem readNumber_le {least n : Nat} {s : String} (h : readNumber least s = .ok n) : least ≤ n := by
  obtain ⟨number, -, checked⟩ := exists_of_bind_ok h
  by_cases small : number < least
  · rw [if_pos small] at checked
    cases checked
  · rw [if_neg small] at checked
    cases checked
    omega

namespace Play

open Emulator

variable {files : Files} {words : List String} {g : Given Play.Key} {r : Request} {entropy : Int}

theorem set_frequency {s s' : Settings} {key : Play.Key} {value : String} (pos : 0 < s.frequency)
    (h : s.set files key value = .ok s') : 0 < s'.frequency := by
  cases key with
  | frequency =>
      obtain ⟨n, number, there⟩ := exists_of_bind_ok h
      cases there
      exact readNumber_le number
  | policy | seed | onFault | steps | scale | screenshot =>
      obtain ⟨_, -, there⟩ := exists_of_bind_ok h
      cases there
      exact pos
  | headless | verbose | legacy | modern | version | help =>
      cases h
      exact pos

/-- No request asks for no instructions at all. -/
theorem frequency_pos (h : readRequest files g = .ok r) : 0 < r.frequency := by
  obtain ⟨settings, folded, rest⟩ := exists_of_bind_ok h
  obtain ⟨⟨input, program⟩, -, there⟩ := exists_of_bind_ok rest
  have pos : 0 < settings.frequency := by
    refine foldlM_keeps (P := fun s => 0 < s.frequency) ?_ (show 0 < 700 by decide) folded
    intro s a s' pos set
    exact set_frequency pos set
  cases there
  exact pos

/-! ## What is run -/

/-- The emulator of a request when its program is loaded. -/
def started (r : Request) (entropy : Int) : Emulator :=
  { emulator r entropy with program := r.program }.reset

theorem unattended_started (pos : 0 < r.frequency) (entropy : Int) :
    Unattended (started r entropy) :=
  ⟨⟨rfl, rfl, nofun⟩, pos, show 0 < frameRate by decide⟩

/-- The machine is to blame: the program is too large, or an instruction fails that halts the
run. -/
def Blamed (r : Request) (entropy : Int) : Prop :=
  3584 < r.program.length ∨ r.onFault = .halt ∧ (started r entropy).FailsWithin r.steps

/-! ## What is said -/

/-- The lines of the screen, and the count and the program counter below. -/
def shown (executed : Nat) (e : Emulator) : String :=
  e.machine.screen.lines ++ s!"Executed {executed} instructions, PC=${hexWord e.machine.pc}\n"

/-- To log something says nothing to the reader of the answer. -/
theorem logFaults_frame (r : Request) (report : Report) (run : HeadlessRun) :
    ∃ err, logFaults r report run = { report with err := err } := by
  have skipped (faults : List Fault) (report : Report) :
      ∃ err, faults.foldl (fun report f =>
          (report.log r.verbose .debug s!"Execution error: {f.text}").log r.verbose .warning
            s!"{f.text}; skipping instruction") report = { report with err := err } := by
    induction faults generalizing report with
    | nil => exact ⟨report.err, rfl⟩
    | cons f rest ih =>
        obtain ⟨err, logged⟩ := ih ((report.log r.verbose .debug s!"Execution error: {f.text}").log
          r.verbose .warning s!"{f.text}; skipping instruction")
        exact ⟨err, logged⟩
  obtain ⟨err, logged⟩ := skipped run.skipped.reverse report
  unfold logFaults
  dsimp only
  rw [logged]
  split
  · exact ⟨_, rfl⟩
  · exact ⟨_, rfl⟩

/-! ### Plain text -/

theorem escape_not_mem_lines (s : Screen 64 32) : escape ∉ s.lines.toList := by
  rw [Screen.lines, String.toList_join, List.mem_flatMap]
  rintro ⟨line, listed, there⟩
  obtain ⟨y, -, rfl⟩ := List.mem_map.mp listed
  rw [String.toList_append, Screen.line, String.toList_ofList, List.mem_append, List.mem_map] at there
  rcases there with ⟨x, -, mark⟩ | newline
  · split at mark <;> exact absurd mark (by decide)
  · exact absurd newline (by decide)

theorem escape_not_mem_repr (n : Nat) : escape ∉ n.repr.toList := by
  rw [Nat.toList_repr]
  intro digit
  exact absurd (Nat.isDigit_of_mem_toDigits (by decide) (by decide) digit) (by decide)

theorem escape_not_mem_hexWord (w : UInt16) : escape ∉ (hexWord w).toList := by
  rw [show (hexWord w).toList = padZeros 4 (hexDigits w.toNat) from String.toList_ofList, padZeros,
    List.mem_append]
  rintro (zero | digit)
  · exact absurd (List.eq_of_mem_replicate zero) (by decide)
  · exact absurd (hexDigits_mem _ _ digit) (by decide)

/-- Nothing that is shown looks like a control sequence. -/
theorem stripControls_shown (executed : Nat) (e : Emulator) :
    stripControls (shown executed e) = shown executed e := by
  apply stripControls_eq_self
  show escape ∉ (e.machine.screen.lines ++ ("Executed " ++ executed.repr ++ " instructions, PC=$" ++
    hexWord e.machine.pc ++ "\n")).toList
  simp only [String.toList_append, List.mem_append, not_or]
  exact ⟨escape_not_mem_lines _, ⟨⟨⟨by decide, escape_not_mem_repr _⟩, by decide⟩,
    escape_not_mem_hexWord _⟩, by decide⟩

/-- What a finished run prints is what is to be shown. -/
theorem text_append (executed : Nat) (e : Emulator) :
    e.machine.screen.text "#" "." ++ "\nExecuted " ++ executed.repr ++ " instructions, PC=$" ++
      hexWord e.machine.pc ++ "\n" = shown executed e := by
  have some : (List.finRange 32).map e.machine.screen.line ≠ [] := by
    rw [ne_eq, List.map_eq_nil_iff]
    decide
  show _ = e.machine.screen.lines ++ ("Executed " ++ executed.repr ++ " instructions, PC=$" ++
    hexWord e.machine.pc ++ "\n")
  rw [show "\nExecuted " = "\n" ++ "Executed " by decide, ← String.append_assoc, Screen.text_eq,
    Screen.intercalate_append_newline some, List.map_map]
  simp only [String.append_assoc]
  rfl

/-! ## How the runner ends -/

theorem play_of_halted {e : Emulator} {f : Fault} (files : Files) (report : Report)
    (h : (e.runHeadless r.steps r.onFault).ending = .halted f) :
    (play files r e report).exitCode = 1 := by
  unfold play
  dsimp only
  rw [h]
  rfl

theorem play_of_finished {e : Emulator} {report : Report} (files : Files)
    (noImage : r.screenshot = none) (silent : report.out = "")
    (h : (e.runHeadless r.steps r.onFault).ending = .finished) :
    (play files r e report).exitCode = report.exitCode ∧
      (play files r e report).out = shown (e.runHeadless r.steps r.onFault).executed
        (e.runHeadless r.steps r.onFault).emulator := by
  obtain ⟨err, logged⟩ := logFaults_frame r report (e.runHeadless r.steps r.onFault)
  have printed := text_append (e.runHeadless r.steps r.onFault).executed
    (e.runHeadless r.steps r.onFault).emulator
  unfold play takeScreenshot
  dsimp only
  rw [h, logged, noImage]
  refine ⟨rfl, (congrArg (report.out ++ stripControls ·) printed).trans ?_⟩
  rw [silent, stripControls_shown, String.empty_append]

/-- The exit code and the text of a run without a window: one where the machine is to blame, and
otherwise zero, with what is to be shown when the steps are reached. -/
structure Answered (r : Request) (entropy : Int) (report : Report) : Prop where
  exitCode : report.exitCode = 0 ∨ report.exitCode = 1
  blamed : report.exitCode = 1 ↔ Blamed r entropy
  out : report.exitCode = 0 → ∃ n,
    (∀ k < n, (started r entropy).passedIn k < r.steps) ∧ r.steps ≤ (started r entropy).passedIn n ∧
      report.out = shown ((started r entropy).passedIn n) ((started r entropy).afterPasses n)

theorem play_answered {report : Report} (pos : 0 < r.frequency) (fits : r.program.length ≤ 3584)
    (noImage : r.screenshot = none) (silent : report.out = "") (code : report.exitCode = 0) :
    Answered r entropy (play files r (started r entropy) report) := by
  have small : ¬ 3584 < r.program.length := Nat.not_lt.mpr fits
  rcases (unattended_started pos entropy).runHeadless_cases r.steps r.onFault with
    ⟨halts, fails, f, halted⟩ | ⟨well, finished, n, short, reached, counted, there⟩
  · have one := play_of_halted files report halted
    refine ⟨Or.inr one, iff_of_true one (Or.inr ⟨halts, fails⟩), fun zero => ?_⟩
    rw [one] at zero
    cases zero
  · obtain ⟨zero, out⟩ := play_of_finished files noImage silent finished
    rw [code] at zero
    refine ⟨Or.inl zero, ?_, fun _ => ⟨n, ?_, ?_, ?_⟩⟩
    · rw [zero]
      refine iff_of_false nofun ?_
      rintro (large | fails)
      · exact small large
      · exact well fails
    · intro k less
      exact Int.ofNat_lt.mp (short k less)
    · exact Int.ofNat_le.mp reached
    · rw [out, counted, there]

theorem run_answered (pos : 0 < r.frequency) (headless : r.headless = true)
    (noImage : r.screenshot = none) : Answered r entropy (run files r entropy) := by
  by_cases fits : r.program.length ≤ maxProgramSize
  · have loaded : (emulator r entropy).loadProgram r.program = .ok (started r entropy) := if_pos fits
    unfold run
    rw [loaded]
    dsimp only
    rw [if_pos headless]
    exact play_answered pos fits noImage rfl rfl
  · have loaded : (emulator r entropy).loadProgram r.program = .error (.tooLarge _) := if_neg fits
    have large : 3584 < r.program.length := Nat.not_le.mp fits
    unfold run
    rw [loaded]
    exact ⟨Or.inr rfl, iff_of_true rfl (Or.inl large), nofun⟩

/-- **Nothing makes the runner fail by itself.** Whatever the program and the options are, a run
without a window and without an image is answered. The exit code is one if the program is larger
than the memory behind its start, or if failures halt the run and an instruction fails that one of
the frames attempts which are run until the steps are reached. Otherwise it is zero, and the screen
is shown with the count and the program counter of the first frame that reaches the steps. -/
theorem headless_never_fails_internally (words : List String) (entropy : Int)
    (understood : readWords options words = .ok g)
    (asksNothing : (g.options.find? fun o => o.1 == .version || o.1 == .help) = none)
    (accepted : readRequest files g = .ok r) (headless : r.headless = true)
    (noImage : r.screenshot = none) :
    ∃ report, answer files words entropy = .report report ∧ Answered r entropy report := by
  refine ⟨run files r entropy, ?_, run_answered (frequency_pos accepted) headless noImage⟩
  rw [answer, understood]
  dsimp only
  rw [asksNothing]
  dsimp only
  rw [accepted]

/-- One file, and its two bytes are no instruction. -/
def senselessProgram : Files := ⟨[(⟨false, ["p"]⟩, .file [0x00, 0x00])]⟩

theorem pathParts_p : pathParts "p" = ["p"] := by
  have split : "p".splitOn "/" = ["p"] := by
    unfold String.splitOn
    rw [if_neg (by decide)]
    unfold String.splitOnAux
    rw [if_neg (by decide +kernel), if_neg (by decide +kernel)]
    unfold String.splitOnAux
    rw [if_pos (by decide +kernel)]
    decide +kernel
  rw [pathParts, split]
  decide +kernel

theorem readInput_p : readInput senselessProgram ["p"] = .ok ("p", [0x00, 0x00]) := by
  simp only [readInput, Files.look, Files.find, Files.locate, normalPath, pathParts_p]
  decide +kernel

/-- The command line that runs it and skips what fails. -/
def skipping : List String := ["--headless", "--on-error", "skip", "p"]

def skippingRequest : Request :=
  { Settings.default with headless := true, onFault := .skip, input := "p", program := [0x00, 0x00] }

theorem skipping_runs_well :
    ∃ report, answer senselessProgram skipping 0 = .report report ∧ report.exitCode = 0 := by
  have understood : readWords options skipping =
      .ok ⟨[(.headless, ""), (.onFault, "skip")], ["p"]⟩ := by decide +kernel
  have accepted : readRequest senselessProgram ⟨[(.headless, ""), (.onFault, "skip")], ["p"]⟩ =
      .ok skippingRequest := by
    unfold readRequest
    dsimp only
    rw [readInput_p]
    decide +kernel
  obtain ⟨report, answered, ending⟩ :=
    headless_never_fails_internally skipping 0 understood rfl accepted rfl rfl
  refine ⟨report, answered, ending.exitCode.resolve_right fun one => ?_⟩
  rcases ending.blamed.mp one with large | ⟨halts, -⟩
  · exact absurd large (by decide)
  · cases halts

end Play

end Command

end Chip8
