import Chip8.Assembly.Image
import Chip8.Config
import Chip8.Machine.Trace
import Chip8.Timers

/-!
The virtual machine: loading, single cycles and bounded headless runs.

A fault of the guest program is remembered, recorded and stops the machine; everything else that
the fault finds stays as it was.
-/

namespace Chip8

/-- A machine with its settings, its board, its timers and its memory of what it did. -/
structure Machine where
  config : Config
  board : Board
  registers : Registers
  timers : Timers Tone
  /-- Most recent cycles, newest first. -/
  recent : List TraceEntry
  /-- The last fault since the last load or reset. -/
  lastError : Option Fault
  /-- The image that a reset loads again. -/
  program : List Byte
  /-- Somebody asked the realtime loop to stop. -/
  stopRequested : Bool

/-- Why a program could not be loaded. -/
inductive LoadError where
  | assembly (error : AssemblyError)
  | refused (fault : Fault)
  deriving DecidableEq

/-- The sentence that reports why a program could not be loaded. -/
def LoadError.message : LoadError → String
  | .assembly error => error.message
  | .refused fault => fault.message

/-- How a single step ended. -/
inductive StepResult where
  /-- A cycle was completed. -/
  | completed (entry : TraceEntry)
  /-- A key wait is pending and no key has come. -/
  | waiting
  /-- The step was refused, or its instruction failed. -/
  | refused (fault : Fault)
  deriving DecidableEq

namespace Machine

/-- A machine at power-on with a given source of random bytes. -/
def withRandom (config : Config) (random : ByteSource) : Machine :=
  { config
    board := ⟨.fresh, .blank config.displayMode, .idle, random⟩
    registers := .atEntry config.entryPoint
    timers := { rate := config.timerRate, tone := {} }
    recent := []
    lastError := none
    program := []
    stopRequested := false }

/-- A machine at power-on, whose random bytes are left to chance unless its settings name a seed. -/
def new (config : Config) (chance : ByteSource) : Machine :=
  withRandom config ((config.seed.map .seeded).getD chance)

/-- The recorded cycles, oldest first. -/
def trace (machine : Machine) : List TraceEntry :=
  machine.recent.reverse

/-! ### Loading -/

/-- Power-on state of all that a program can change, but for keypad, random bytes and memory. -/
def restart (machine : Machine) : Machine :=
  let registers := Registers.atEntry machine.config.entryPoint
  { machine with
    registers
    board := { machine.board with display := machine.board.display.clear }
    timers := machine.timers.reset.syncTone registers
    recent := []
    lastError := none }

/-- The machine with another memory. -/
def withMemory (machine : Machine) (memory : Memory) : Machine :=
  { machine with board := { machine.board with memory } }

/-- Loads an image at the entry point and restarts. -/
def loadImage (machine : Machine) (image : List Byte) : Except Fault Unit × Machine :=
  match machine.board.memory.load image machine.config.entryPoint with
  | (.error fault, memory) => (.error fault, machine.withMemory memory)
  | (.ok (), memory) => (.ok (), { machine.withMemory memory with program := image }.restart)

/-- Assembles a source text for the entry point and loads the image. -/
def loadSource (machine : Machine) (source : List Char) : Except LoadError Unit × Machine :=
  match assemble source machine.config.entryPoint with
  | .error error => (.error (.assembly error), machine)
  | .ok image =>
    let (answer, left) := machine.loadImage image
    (answer.mapError .refused, left)

/-- Loads the remembered image again and restarts. -/
def reset (machine : Machine) : Except Fault Unit × Machine :=
  machine.loadImage machine.program

/-! ### Single steps -/

/-- The entry of a cycle of the machine, with what the cycle did and left. -/
def entry (machine : Machine) (activity : Activity) (after : Registers) (fault : Option Fault) :
    TraceEntry :=
  { cycle := machine.registers.cycleCount
    pc := machine.registers.pc
    activity
    before := machine.registers
    after
    fault }

/-- Adds an entry to the trace, from which the oldest one falls out when the limit is reached. -/
def record (machine : Machine) (entry : TraceEntry) : Machine :=
  { machine with recent := (entry :: machine.recent).take machine.config.traceLimit }

/-- Takes note of a failed cycle, which stops the machine if the guest program is at fault. -/
def fail (machine : Machine) (activity : Activity) (fault : Fault) : StepResult × Machine :=
  if fault.stopsMachine then
    let after := machine.registers.halt
    (.refused fault, { machine with registers := after, lastError := some fault }.record
      (machine.entry activity after (some fault)))
  else (.refused fault, machine)

/-- Halts instead of executing the same jump for ever, if the settings say so. -/
def settle (machine : Machine) (word : Word) (after : Registers) : Registers :=
  if machine.config.haltOnIdleLoop && word.operation? == some .jump &&
      after.pc == machine.registers.pc
  then after.halt
  else after

/-- Fetches and executes the next instruction. -/
def executeNext (machine : Machine) : StepResult × Machine :=
  match machine.board.memory.readWord machine.registers.pc with
  | .error fault => machine.fail .unfetched fault
  | .ok word =>
    match execute word machine.registers machine.board with
    | (.error fault, board) => { machine with board }.fail (.executed word) fault
    | (.ok result, board) =>
      let after := machine.settle word result
      let entry := machine.entry (.executed word) after none
      let moved := { machine with
        board
        registers := after
        timers := machine.timers.syncTone after }
      (.completed entry, moved.record entry)

/-- The register file after a key has ended a wait. -/
def deliver (registers : Registers) (register : Int) (key : Key) : Except Fault Registers := do
  return (← registers.set register key.val).resume.advance.countCycle

/-- Looks for a key press, which ends the pending wait. -/
def pollKey (machine : Machine) : StepResult × Machine :=
  match machine.board.keypad.takePress with
  | (none, _) => (.waiting, machine)
  | (some key, keypad) =>
    let polled := { machine with board := { machine.board with keypad } }
    let register := machine.registers.keyRegister.getD 0
    match deliver machine.registers register key with
    | .error fault => (.refused fault, polled)
    | .ok after =>
      let moved := { polled with registers := after }
      match machine.board.memory.readWord machine.registers.pc with
      | .error fault => (.refused fault, moved)
      | .ok word =>
        let entry := machine.entry (.keyDelivered word register key) after none
        (.completed entry, moved.record entry)

/-- One cycle: the next instruction, or one look for the key that a wait needs. -/
def step (machine : Machine) : StepResult × Machine :=
  match machine.registers.mode with
  | .halted => (.refused .halted, machine)
  | .awaitingKey => machine.pollKey
  | .running => machine.executeNext

/-! ### Headless runs -/

/-- Steps until the machine halts, waits or fails, but completes at most some number of cycles. -/
def stepMany : Nat → Machine → Option Fault × Machine
  | 0, machine => (none, machine)
  | budget + 1, machine =>
    if machine.registers.halted then (none, machine)
    else
      match machine.step with
      | (.completed _, moved) => stepMany budget moved
      | (.waiting, moved) => (none, moved)
      | (.refused fault, moved) => (some fault, moved)

/-- Runs until the machine halts or waits for a key; reaching the cycle limit is a fault. -/
def run (machine : Machine) (limit : Int) : Except Fault Unit × Machine :=
  -- Each completed cycle counts once, so the distance to the limit bounds the run.
  match stepMany (limit - machine.registers.cycleCount).toNat machine with
  | (some fault, left) => (.error fault, left)
  | (none, left) =>
    if left.registers.mode = .running ∧ limit ≤ left.registers.cycleCount then
      (.error (.cycleLimit limit), left)
    else (.ok (), left)

/-! ### Timers and keys -/

/-- Counts both timers down by one. -/
def tick (machine : Machine) : Machine :=
  let (registers, timers) := machine.timers.tick machine.registers
  { machine with registers, timers }

/-- Counts both timers down by a number of ticks. -/
def tickMany (machine : Machine) (count : Nat) : Machine :=
  let (registers, timers) := machine.timers.tickMany machine.registers count
  { machine with registers, timers }

/-- Turns elapsed seconds into ticks, and answers with their number. -/
def advanceTimers (machine : Machine) (elapsed : Float) : Except Fault Int × Machine :=
  let (count, registers, timers) := machine.timers.advance machine.registers elapsed
  (count, { machine with registers, timers })

/-- The machine with another keypad. -/
def withKeypad (machine : Machine) (keypad : Keypad) : Machine :=
  { machine with board := { machine.board with keypad } }

/-- A key of the machine's keypad goes down. -/
def pressKey (machine : Machine) (number : Int) : Except Fault Unit × Machine :=
  let (answer, keypad) := machine.board.keypad.press number
  (answer, machine.withKeypad keypad)

/-- A key of the machine's keypad goes up. -/
def releaseKey (machine : Machine) (number : Int) : Except Fault Unit × Machine :=
  let (answer, keypad) := machine.board.keypad.release number
  (answer, machine.withKeypad keypad)

/-- All keys of the machine's keypad go up. -/
def releaseAllKeys (machine : Machine) : Machine :=
  machine.withKeypad machine.board.keypad.releaseAll

/-- Asks the realtime loop to stop. -/
def requestStop (machine : Machine) : Machine :=
  { machine with stopRequested := true }

end Machine

end Chip8
