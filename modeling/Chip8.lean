import Chip8.Main
import Chip8.Command.Disassemble
import Chip8.Command.Play
import Chip8.Emulator.Headless
import Chip8.Emulator.Storage
import Chip8.Instruction.Encoding
import Chip8.Proofs.Machine.Refusal
import Chip8.Proofs.Emulator.Steps
import Chip8.Proofs.Emulator.Loop
import Chip8.Proofs.Emulator.Host
import Chip8.Proofs.Emulator.Breakpoints
import Chip8.Proofs.Emulator.Iteration
import Chip8.Proofs.Emulator.Pace
import Chip8.Proofs.Emulator.Policies
import Chip8.Proofs.Emulator.Routines
import Chip8.Proofs.Screen.Drawing
import Chip8.Proofs.Emulator.Countdown
import Chip8.Proofs.Emulator.Safety
import Chip8.Proofs.Emulator.Accounting
import Chip8.Proofs.Emulator.Restart
import Chip8.Proofs.Listing.Assembler
import Chip8.Proofs.Listing.Execution
import Chip8.Proofs.Emulator.Schedules
import Chip8.Proofs.Emulator.Tone
import Chip8.Proofs.Emulator.KeyWait
import Chip8.Proofs.Emulator.Frames
import Chip8.Proofs.Debug.History
import Chip8.Proofs.Emulator.Dialects
import Chip8.Proofs.Command.Headless
import Chip8.Proofs.Screen.Pixels
import Chip8.Proofs.Emulator.Failures
import Chip8.Proofs.Emulator.Effects
import Chip8.Proofs.Emulator.Budget
import Chip8.Proofs.Emulator.Flow
import Chip8.Proofs.Machine.Arithmetic
import Chip8.Proofs.Machine.Transfer
import Chip8.Proofs.Listing.Coverage
import Chip8.Proofs.Emulator.Resumed
import Chip8.Proofs.Emulator.Flags
import Chip8.Proofs.Emulator.Writes
import Chip8.Proofs.Memory.Arrays
import Chip8.Proofs.HexDump
import Chip8.Proofs.Address
