import Chip8.Hex
import Chip8.Word

/-! The causes for which a machine refuses an operation, and the sentence that reports each. -/

namespace Chip8

/-- The two ways in which memory is used. -/
inductive Access where
  | read
  | write
  deriving DecidableEq

/-- The word a report uses for an access. -/
def Access.name : Access → String
  | .read => "read"
  | .write => "write"

/-- Why an operation was refused. -/
inductive Fault where
  /-- The address lies outside the window in which this access is legal. -/
  | outOfBounds (access : Access) (address : Int)
  /-- No operation answers to the word, fetched from the given address if it is known. -/
  | unknownOpcode (word : Word) (location : Option Int)
  /-- The image is longer than the room between its base and the end of memory. -/
  | programTooLarge (size limit : Nat)
  /-- A halted machine executes nothing. -/
  | halted
  /-- The number names none of the sixteen registers. -/
  | invalidRegister (index : Int)
  /-- A register file holds fewer registers or frames than the place that is read. -/
  | missingEntry
  /-- A register file holds fewer registers or frames than the place that is written. -/
  | unwritableEntry
  /-- The number names none of the sixteen keys. -/
  | invalidKey (key : Int)
  /-- A headless run used up its cycles while the machine was still running. -/
  | cycleLimit (limit : Int)
  /-- A tick count would be computed from a time that is no number. -/
  | undefinedTime
  /-- A tick count would be computed from an infinite time. -/
  | infiniteTime
  deriving DecidableEq

namespace Fault

/-- Faults of the guest program stop the machine; all others are mistakes of its host. -/
def stopsMachine : Fault → Bool
  | .outOfBounds .. | .unknownOpcode .. => true
  | _ => false

/-- The sentence that reports a fault. -/
def message : Fault → String
  | .outOfBounds access address =>
    s!"Invalid memory {access.name} at address 0x{hexText 0 address}"
  | .unknownOpcode word none => s!"Unknown opcode: 0x{hexText 4 word.val}"
  | .unknownOpcode word (some location) =>
    s!"Unknown opcode: 0x{hexText 4 word.val} at 0x{hexText 3 location}"
  | .programTooLarge size limit => s!"Program image is {size} bytes, limit is {limit}"
  | .halted => "CPU is halted"
  | .invalidRegister index => s!"Invalid register: V{index}"
  | .missingEntry => "tuple index out of range"
  | .unwritableEntry => "list assignment index out of range"
  | .invalidKey key => s!"Invalid key: {key}"
  | .cycleLimit limit => s!"Max cycles ({limit}) exceeded"
  | .undefinedTime => "cannot convert float NaN to integer"
  | .infiniteTime => "cannot convert float infinity to integer"

end Fault

end Chip8
