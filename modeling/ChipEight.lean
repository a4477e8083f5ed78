import ChipEight.Machine.Operation
import ChipEight.Main
import ChipEight.Proofs.Instruction.Words
import ChipEight.Proofs.Logging.Requests
import ChipEight.Proofs.Machine.Arithmetic
import ChipEight.Proofs.Machine.Blocks
import ChipEight.Proofs.Machine.Calls
import ChipEight.Proofs.Machine.Disassembly
import ChipEight.Proofs.Machine.FaultingWords
import ChipEight.Proofs.Machine.ShiftMode
import ChipEight.Proofs.Machine.Sprites
import ChipEight.Proofs.Scheduler.Beeps
import ChipEight.Proofs.Scheduler.Bounds
import ChipEight.Proofs.Scheduler.Discipline
import ChipEight.Proofs.Scheduler.Finish
import ChipEight.Proofs.Scheduler.FreshStart
import ChipEight.Proofs.Scheduler.HeldKeys
import ChipEight.Proofs.Scheduler.Pause
import ChipEight.Proofs.Scheduler.Programs
import ChipEight.Proofs.Scheduler.Punctuality
import ChipEight.Proofs.Scheduler.Restarts
import ChipEight.Proofs.Scheduler.TimerClock
import ChipEight.Proofs.Screen.Toggles
import ChipEight.Proofs.Window.Picture
import ChipEight.Proofs.Window.Rendering
import ChipEight.Proofs.Window.RunState
