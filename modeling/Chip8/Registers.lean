import Chip8.Fault
import Chip8.Text.Quoted

/-!
The register file of the machine.

A register file is plain data that a host may fill in freely, so its fields are unbounded integers
and its lists have any length.
Every operation truncates what it writes, and `isValid` says when all fields lie in their ranges.
-/

namespace Chip8

/-- What the machine does with its next cycle. -/
inductive Mode where
  | running
  | awaitingKey
  | halted
  deriving DecidableEq

/-- The name of a mode in reports. -/
def Mode.name : Mode → String
  | .running => "RUNNING"
  | .awaitingKey => "AWAITING_KEY"
  | .halted => "HALTED"

/-- The mode that carries a name. -/
def Mode.ofName? : String → Option Mode
  | "RUNNING" => some .running
  | "AWAITING_KEY" => some .awaitingKey
  | "HALTED" => some .halted
  | _ => none

/-- The sentence that refuses a name that no mode carries. -/
def Mode.refusal (name : String) : String :=
  s!"{quotedText name} is not a valid MachineMode"

/-- General registers, address register, program counter, call stack, timers and mode. -/
structure Registers where
  /-- The general registers, the last of which doubles as the flag. -/
  v : List Int := List.replicate 16 0
  /-- The address register. -/
  i : Int := 0
  /-- The program counter. -/
  pc : Int := 512
  /-- The place of the newest saved frame. -/
  sp : Int := 0
  /-- Saved addresses of call instructions. -/
  stack : List Int := List.replicate 16 0
  /-- Ticks until the delay is over. -/
  delayTimer : Int := 0
  /-- Ticks until the tone falls silent. -/
  soundTimer : Int := 0
  /-- What the next cycle does. -/
  mode : Mode := .running
  /-- The register that a pending key wait will fill. -/
  keyRegister : Option Int := none
  /-- Number of instructions executed. -/
  cycleCount : Int := 0
  deriving DecidableEq

namespace Registers

/-- The number of the register that holds carry, borrow and collision. -/
def flagIndex : Nat := 15

/-- The register file at power-on, about to execute at an entry point. -/
def atEntry (entry : Int) : Registers :=
  { pc := entry }

/-- The machine executes nothing more. -/
def halted (registers : Registers) : Bool :=
  registers.mode == .halted

/-- A key wait is pending. -/
def awaitingKey (registers : Registers) : Bool :=
  registers.mode == .awaitingKey

/-- Sixteen bytes and sixteen frames, every field in its range, a key register exactly in a wait. -/
def isValid (registers : Registers) : Bool :=
  let fits (limit value : Int) : Bool := 0 ≤ value ∧ value ≤ limit
  registers.v.length == 16 && registers.stack.length == 16 &&
    registers.v.all (fits 0xFF) && registers.stack.all (fits 0xFFFF) &&
    fits 0xFFFF registers.i && fits 0xFFFF registers.pc &&
    fits 0xFF registers.sp && fits 0xFF registers.delayTimer && fits 0xFF registers.soundTimer &&
    registers.awaitingKey == registers.keyRegister.isSome && decide (0 ≤ registers.cycleCount)

/-! ### General registers -/

/-- The place of a register, if its number is one of the sixteen. -/
def place (index : Int) : Except Fault Nat :=
  if 0 ≤ index ∧ index < 16 then .ok index.toNat else .error (.invalidRegister index)

/-- The value at a place of the general registers. -/
def peek (registers : Registers) (place : Nat) : Except Fault Int :=
  match registers.v[place]? with
  | some value => .ok value
  | none => .error .missingEntry

/-- The value of a numbered register. -/
def get (registers : Registers) (index : Int) : Except Fault Int := do
  registers.peek (← place index)

/-- The flag register. -/
def flag (registers : Registers) : Except Fault Int :=
  registers.peek flagIndex

/-- Stores the low eight bits of a value in a numbered register. -/
def set (registers : Registers) (index value : Int) : Except Fault Registers := do
  let place ← place index
  if place < registers.v.length then
    return { registers with v := registers.v.set place (value % 256) }
  else
    throw .unwritableEntry

/-- Stores several values in order, so that the last write to a register wins. -/
def setAll (registers : Registers) : List (Int × Int) → Except Fault Registers
  | [] => .ok registers
  | (index, value) :: rest => do (← registers.set index value).setAll rest

/-! ### Address register and program counter -/

/-- Stores the low sixteen bits of a value in the address register. -/
def setIndex (registers : Registers) (value : Int) : Registers :=
  { registers with i := value % 65536 }

/-- Moves the program counter on by a number of instructions. -/
def advanceBy (registers : Registers) (count : Int) : Registers :=
  { registers with pc := (registers.pc + 2 * count) % 65536 }

/-- Moves the program counter to the next instruction. -/
def advance (registers : Registers) : Registers :=
  registers.advanceBy 1

/-- Moves the program counter to an address. -/
def jump (registers : Registers) (address : Int) : Registers :=
  { registers with pc := address % 65536 }

/-! ### Call stack -/

/--
Saves an address in the frame after the newest.

The sixteen frames form a ring, so a seventeenth nested call overwrites the oldest frame.
-/
def pushFrame (registers : Registers) (address : Int) : Except Fault Registers :=
  let place := ((registers.sp + 1) % 16).toNat
  if place < registers.stack.length then
    .ok { registers with
      sp := (registers.sp + 1) % 16
      stack := registers.stack.set place (address % 65536) }
  else
    .error .unwritableEntry

/-- The frame at a place, where a negative place counts back from the last frame. -/
def frameAt (registers : Registers) (place : Int) : Except Fault Int :=
  let fromStart := if place < 0 then place + registers.stack.length else place
  -- A place before the first frame is as absent as one past the last.
  if fromStart < 0 then .error .missingEntry
  else
    match registers.stack[fromStart.toNat]? with
    | some address => .ok address
    | none => .error .missingEntry

/-- The newest saved address, and the register file without it. -/
def popFrame (registers : Registers) : Except Fault (Int × Registers) := do
  let address ← registers.frameAt registers.sp
  return (address, { registers with sp := (registers.sp - 1) % 16 })

/-! ### Timers -/

/-- Sets the delay timer to the low eight bits of a value. -/
def setDelay (registers : Registers) (value : Int) : Registers :=
  { registers with delayTimer := value % 256 }

/-- Sets the sound timer to the low eight bits of a value. -/
def setSound (registers : Registers) (value : Int) : Registers :=
  { registers with soundTimer := value % 256 }

/-- Counts both timers down by one, stopping at zero. -/
def tickTimers (registers : Registers) : Registers :=
  { registers with
    delayTimer := max 0 (registers.delayTimer - 1)
    soundTimer := max 0 (registers.soundTimer - 1) }

/-- Some timer has not run out. -/
def timersRunning (registers : Registers) : Bool :=
  decide (0 < registers.delayTimer) || decide (0 < registers.soundTimer)

/-! ### Mode -/

/-- Suspends execution until a key arrives for a numbered register. -/
def awaitKey (registers : Registers) (index : Int) : Except Fault Registers := do
  let _ ← place index
  return { registers with mode := .awaitingKey, keyRegister := some index }

/-- Returns to execution and forgets a pending key wait. -/
def resume (registers : Registers) : Registers :=
  { registers with mode := .running, keyRegister := none }

/-- Stops execution and forgets a pending key wait. -/
def halt (registers : Registers) : Registers :=
  { registers with mode := .halted, keyRegister := none }

/-- Counts one more executed instruction. -/
def countCycle (registers : Registers) : Registers :=
  { registers with cycleCount := registers.cycleCount + 1 }

/-! ### Text -/

/-- The name of the register at a place. -/
def nameOf (place : Nat) : String :=
  s!"V{hexText 0 place}"

/-- All general registers with their names, in order. -/
def named (registers : Registers) : List (String × Int) :=
  registers.v.zipIdx.map fun (value, place) => (nameOf place, value)

/-- One line that shows the whole register file but for the saved frames. -/
def toText (registers : Registers) : String :=
  let general := " ".intercalate
    (registers.named.map fun (name, value) => s!"{name}={hexText 2 value}")
  s!"[Cycle {registers.cycleCount}] PC={hexText 3 registers.pc} I={hexText 3 registers.i} " ++
    s!"SP={hexText 0 registers.sp} DT={registers.delayTimer} ST={registers.soundTimer} " ++
    s!"{general} {registers.mode.name}"

end Registers

end Chip8
