import Chip8.Dispatch
import Chip8.Gallery
import Chip8.Inspection
import Chip8.Main
import Chip8.Proofs.Execution
import Chip8.Proofs.Machine.Fault
import Chip8.Proofs.Machine.WellFormed
import Chip8.Proofs.Text.Blank
import Chip8.Proofs.Text.Numeral
import Chip8.Proofs.Assembly.Line
import Chip8.Proofs.Assembly.Operand
import Chip8.Proofs.Assembly.Printed
import Chip8.Proofs.Instruction.Canonical
import Chip8.Proofs.Assembly.RoundTrip
import Chip8.Proofs.Assembly.Image
import Chip8.Proofs.Assembly.Label
import Chip8.Proofs.Assembly.Passes
import Chip8.Proofs.Machine.Program
import Chip8.Proofs.Machine.Sequence
import Chip8.Proofs.Machine.KeyWait
import Chip8.Proofs.Execution.Beside
import Chip8.Proofs.Execution.Valid
import Chip8.Proofs.Machine.View
import Chip8.Proofs.Machine.Uses
import Chip8.Proofs.Machine.Reset
import Chip8.Proofs.Machine.Journal
import Chip8.Proofs.Machine.Timeless
import Chip8.Proofs.CommandLine.SleepScript
import Chip8.Proofs.Machine.Delivery
import Chip8.Proofs.CommandLine.KeyDelivery
import Chip8.Proofs.CommandLine.HeadlessKeys
import Chip8.Proofs.Memory.Store
import Chip8.Proofs.Machine.CallStack
import Chip8.Proofs.Machine.Timeline
import Chip8.Proofs.Machine.Run
import Chip8.Proofs.Machine.Sounding
import Chip8.Proofs.Machine.Halting
import Chip8.Proofs.Machine.IdleLoop
import Chip8.Proofs.Machine.RealtimeExit
import Chip8.Proofs.Machine.TraceWindow
import Chip8.Proofs.CommandLine.ExitStatus
import Chip8.Proofs.Assembly.Agreement
import Chip8.Proofs.Execution.Arithmetic
import Chip8.Proofs.Execution.Counter
import Chip8.Proofs.Execution.Writers
import Chip8.Proofs.Assembly.Source
import Chip8.Proofs.Assembly.Located
import Chip8.Proofs.Machine.LoadErrors
import Chip8.Proofs.Display.Sprite
import Chip8.Proofs.Assembly.Joined
import Chip8.Proofs.Assembly.Respelled
import Chip8.Proofs.Keypad.History
import Chip8.Proofs.Machine.Timekeeping
import Chip8.Proofs.Execution.Transfer
import Chip8.Proofs.Dispatch
import Chip8.Proofs.Memory.Dump
