import Chip8.Command.Report
import Chip8.Emulator.Headless
import Chip8.Emulator.Storage
import Chip8.Screen.View

/-!
# The runner

Runs a program file without a window for a number of instructions, shows the screen as text and
can write it as an image.
-/

namespace Chip8.Command.Play

open Chip8.Text

def tool : String := "c8run"

inductive Key
  | legacy
  | modern
  | frequency
  | policy
  | seed
  | onFault
  | headless
  | steps
  | scale
  | screenshot
  | verbose
  | version
  | help
  deriving DecidableEq, Repr

def options : List (Opt Key) :=
  [⟨.legacy, ["--legacy"], false⟩, ⟨.modern, ["--modern"], false⟩,
   ⟨.frequency, ["-f", "--frequency"], true⟩, ⟨.policy, ["--memory-policy"], true⟩,
   ⟨.seed, ["--seed"], true⟩, ⟨.onFault, ["--on-error"], true⟩, ⟨.headless, ["--headless"], false⟩,
   ⟨.steps, ["--steps"], true⟩, ⟨.scale, ["--scale"], true⟩, ⟨.screenshot, ["--screenshot"], true⟩,
   ⟨.verbose, ["-v", "--verbose"], false⟩, ⟨.version, ["--version"], false⟩,
   ⟨.help, ["--help"], false⟩]

structure Settings where
  dialect : Dialect
  frequency : Nat
  policy : Policy
  seed : Option Int
  onFault : Emulator.OnFault
  headless : Bool
  steps : Nat
  scale : Nat
  screenshot : Option String
  verbose : Bool
  deriving DecidableEq, Repr

def Settings.default : Settings where
  dialect := .modern
  frequency := 700
  policy := .wrap
  seed := none
  onFault := .halt
  headless := false
  steps := 10000
  scale := 10
  screenshot := none
  verbose := false

structure Request extends Settings where
  input : String
  program : List UInt8
  deriving DecidableEq, Repr

/-- The dialect that was asked for last. -/
def readDialect (g : Given Key) : Dialect :=
  match g.options.reverse.find? fun o => o.1 == .legacy || o.1 == .modern with
  | some (.legacy, _) => .legacy
  | _ => .modern

/-- The settings after one more option. The dialect is not one of them, because two options tell
of it. -/
def Settings.set (files : Files) (s : Settings) (key : Key) (value : String) :
    Except ReadError Settings := do
  match key with
  | .frequency => return { s with frequency := ← readNumber 1 value }
  | .policy => return { s with policy := ← readName [.wrap, .fault] Policy.name value }
  | .seed => return { s with seed := some (← readInt value) }
  | .onFault => return { s with onFault := ← readName Emulator.OnFault.all (·.name) value }
  | .headless => return { s with headless := true }
  | .steps => return { s with steps := ← readNumber 0 value }
  | .scale => return { s with scale := ← readNumber 1 value }
  | .screenshot => return { s with screenshot := some (← readTarget files value) }
  | .verbose => return { s with verbose := true }
  | .legacy | .modern | .version | .help => return s

/-- The request of a command line. The options are looked at before the input, in the order in
which they were given. -/
def readRequest (files : Files) (g : Given Key) : Except ReadError Request := do
  let settings ← g.settings.foldlM (fun s (key, value) => s.set files key value) Settings.default
  let (input, program) ← readInput files g.arguments
  return { settings with dialect := readDialect g, input := input, program := program }

/-- The machine of a request. Without a seed the given one is used. -/
def emulator (r : Request) (entropy : Int) : Emulator :=
  .ofMachine (.fresh r.dialect r.policy (.ofSeed (r.seed.getD entropy))) r.frequency

def logFaults (r : Request) (report : Report) (run : Emulator.HeadlessRun) : Report :=
  let report := run.skipped.reverse.foldl (fun report f =>
      (report.log r.verbose .debug s!"Execution error: {f.text}").log r.verbose .warning
        s!"{f.text}; skipping instruction")
    report
  match run.ending with
  | .halted f => report.log r.verbose .debug s!"Execution error: {f.text}"
  | _ => report

def takeScreenshot (files : Files) (r : Request) (e : Emulator) (report : Report) : Report :=
  match r.screenshot with
  | none => report
  | some path =>
    match e.machine.screen.render r.scale, files.target path with
    | .error err, _ => report.fail "" (.other err.message)
    | .ok image, .ok _ =>
      { report.addOut s!"Screenshot written to {path}\n" with written := some (path, .image image) }
    | .ok _, .error (.missing p) => report.fail "" (.file (FileError.missing p).message)
    | .ok _, .error err => report.fail "" (.other err.message)

def play (files : Files) (r : Request) (e : Emulator) (report : Report) : Report :=
  let run := e.runHeadless r.steps r.onFault
  let report := logFaults r report run
  match run.ending with
  | .halted f => report.fail "" (.machine f.text)
  | .stuck => report.fail "" (.other "no instruction can be executed")
  | .finished =>
    let e := run.emulator
    let screen := e.machine.screen.text "#" "."
    let report := report.addOut
      s!"{screen}\nExecuted {run.executed} instructions, PC=${hexWord e.machine.pc}\n"
    takeScreenshot files r e report

def run (files : Files) (r : Request) (entropy : Int) : Report :=
  let size := r.program.length
  let report := Report.silent.log r.verbose .debug s!"Read ROM {r.input}"
  match (emulator r entropy).loadProgram r.program with
  | .error err =>
    (report.log r.verbose .error s!"Program too large: {size} bytes").fail "" (.machine err.message)
  | .ok e =>
    let report := report.log r.verbose .info
      s!"Loaded program: {size} bytes at ${hex 4 programStart}"
    let report := report.log r.verbose .debug
      s!"Quirks: {r.dialect.name}, {r.frequency} Hz, memory {r.policy.name}"
    if r.headless then play files r e report
    else report.fail "" (.other "there is no window, use --headless")

def helpReport : Report := Report.silent.addOut s!"Usage: {tool} [OPTIONS] ROM\n"

def answer (files : Files) (words : List String) (entropy : Int) : Outcome :=
  match readWords options words with
  | .error e => e.outcome
  | .ok g =>
    match g.options.find? fun o => o.1 == .version || o.1 == .help with
    | some (.version, _) => .report (versionReport tool)
    | some _ => .report helpReport
    | none =>
      match readRequest files g with
      | .error e => e.outcome
      | .ok r => .report (run files r entropy)

end Chip8.Command.Play
