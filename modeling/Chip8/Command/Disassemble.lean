import Chip8.Command.Report
import Chip8.HexDump
import Chip8.Listing

/-!
# The disassembler

Lists a program file as assembly text, to the standard output or to a file.
-/

namespace Chip8.Command.Disassemble

open Chip8.Text

def tool : String := "c8disasm"

inductive Key
  | output
  | address
  | count
  | hex
  | noBytes
  | verbose
  | version
  | help
  deriving DecidableEq, Repr

def options : List (Opt Key) :=
  [⟨.output, ["-o", "--output"], true⟩, ⟨.address, ["-a", "--address"], true⟩,
   ⟨.count, ["-c", "--count"], true⟩, ⟨.hex, ["--hex"], false⟩, ⟨.noBytes, ["--no-bytes"], false⟩,
   ⟨.verbose, ["-v", "--verbose"], false⟩, ⟨.version, ["--version"], false⟩,
   ⟨.help, ["--help"], false⟩]

structure Settings where
  output : Option String
  address : String
  count : Option Int
  hex : Bool
  noBytes : Bool
  verbose : Bool
  deriving DecidableEq, Repr

def Settings.default : Settings := ⟨none, "0x200", none, false, false, false⟩

structure Request extends Settings where
  input : String
  bytes : List UInt8
  deriving DecidableEq, Repr

def Settings.set (files : Files) (s : Settings) (key : Key) (value : String) :
    Except ReadError Settings := do
  match key with
  | .output => return { s with output := some (← readTarget files value) }
  | .address => return { s with address := value }
  | .count => return { s with count := some (← readInt value) }
  | .hex => return { s with hex := true }
  | .noBytes => return { s with noBytes := true }
  | .verbose => return { s with verbose := true }
  | .version | .help => return s

/-- The request of a command line. The options are looked at before the input, in the order in
which they were given. -/
def readRequest (files : Files) (g : Given Key) : Except ReadError Request := do
  let settings ← g.settings.foldlM (fun s (key, value) => s.set files key value) Settings.default
  let (input, bytes) ← readInput files g.arguments
  return { settings with input := input, bytes := bytes }

def listingLines (r : Request) (base : Int) (items : List ListingItem) : List String :=
  [s!"; Disassembly of {baseName r.input}", s!"; Size: {r.bytes.length} bytes",
   s!"; Base address: ${Text.hex 4 base}", ""] ++
  (if r.hex then HexDump.lines r.bytes base else []) ++
  items.map (if r.noBytes then ListingItem.shortLine else ListingItem.line)

/-- A line for the one who wants to know more. -/
def note (r : Request) (report : Report) (line : String) : Report :=
  if r.verbose then report.addErr (line ++ "\n") else report

def refuse (line : String) : Report := { Report.silent.addErr (line ++ "\n") with exitCode := 2 }

def list (files : Files) (r : Request) (base : Int) : Report :=
  let items := listingUpTo r.count base r.bytes
  let result := "\n".intercalate (listingLines r base items) ++ "\n"
  let report := note r Report.silent s!"Input file: {r.input} ({r.bytes.length} bytes)"
  let report := note r report s!"Base address: ${Text.hex 4 base}"
  let last := s!"Instructions disassembled: {items.length}"
  match r.output with
  | none => note r (report.addOut result) last
  | some path =>
    match files.target path with
    | .error e => { report.addErr s!"Error writing {path}: {e.message}\n" with exitCode := 1 }
    | .ok _ =>
      let report := { report with written := some (path, .text result) }
      note r (note r report s!"Output written to: {path}") last

/-- Do what is requested: the address is looked at before the file. -/
def run (files : Files) (r : Request) : Report :=
  match Address.ofText? r.address with
  | none => refuse s!"Error: Invalid address '{r.address}'"
  | some base =>
    if base < 0 ∨ 0xFFF < base then
      refuse "Error: Address must be 0-4095 (0x000-0xFFF)"
    else if r.bytes.isEmpty then refuse s!"Error: {r.input} is empty"
    else list files r base

def helpReport : Report := Report.silent.addOut s!"Usage: {tool} [OPTIONS] INPUT_FILE\n"

def answer (files : Files) (words : List String) : Outcome :=
  match readWords options words with
  | .error e => e.outcome
  | .ok g =>
    match g.options.find? fun o => o.1 == .version || o.1 == .help with
    | some (.version, _) => .report (versionReport tool)
    | some _ => .report helpReport
    | none =>
      match readRequest files g with
      | .error e => e.outcome
      | .ok r => .report (run files r)

end Chip8.Command.Disassemble
