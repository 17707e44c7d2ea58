import Chip8.Proofs.Machine.Invariant

/-!
The kinds of step of a machine within the invariant, and what each kind does to mode and cycles.

A step is refused by a halted machine, finds no key, delivers one, executes a word, or meets a
fault of the guest program.
There is no other way for it to end.
-/

namespace Chip8

/-- An executed instruction leaves the counting of its cycle to its word. -/
theorem Registers.Change.cycles {registers result : Registers} (change : registers.Change result) :
    result.cycleCount = registers.cycleCount := by
  -- No kind of change writes the count.
  cases change <;> rfl

/-- An executed word takes one cycle. -/
theorem execute_cycles {entry : Int} {word : Word} {registers result : Registers}
    {board left : Board} (bounded : registers.Bounded entry)
    (done : execute word registers board = (.ok result, left)) :
    result.cycleCount = registers.cycleCount + 1 := by
  obtain ⟨instruction, moved, -, performed, rfl⟩ := execute_done done
  have change := Operation.perform_change bounded.toFull (bounded.reg_range 0)
    instruction.operation (fun _ => bounded.pointer) performed
  -- The cycle is counted behind the instruction, which leaves the count alone.
  show moved.cycleCount + 1 = registers.cycleCount + 1
  rw [change.cycles]

namespace Machine

/-- The kinds of step of a machine: how a step ends, and what it leaves. -/
inductive Steps (machine : Machine) : StepResult → Machine → Prop where
  /-- A halted machine refuses, and stays as it is. -/
  | halted (mode : machine.registers.mode = .halted) : Steps machine (.refused .halted) machine
  /-- A poll that finds no key leaves everything as it is. -/
  | fruitless (mode : machine.registers.mode = .awaitingKey)
    (empty : machine.board.keypad.queue = []) : Steps machine .waiting machine
  /-- A poll that finds a key stores the oldest one, and ends the wait. -/
  | delivered (mode : machine.registers.mode = .awaitingKey) {x : Nibble} {key : Key}
    {rest : List Key} {word : Word}
    (register : machine.registers.keyRegister = some (x.val : Int))
    (queued : machine.board.keypad.queue = key :: rest) :
    Steps machine (.completed (machine.filling word x key))
      ((machine.filled x key rest).record (machine.filling word x key))
  /-- A running machine executes the word at its counter. -/
  | executed (mode : machine.registers.mode = .running) {word : Word} {board : Board}
    {result : Registers} (fetched : machine.board.memory.readWord machine.registers.pc = .ok word)
    (done : execute word machine.registers machine.board = (.ok result, board)) :
    Steps machine
      (.completed (machine.entry (.executed word) (machine.settle word result) none))
      (machine.moved word board result)
  /-- A fault of the guest program stops a running machine. -/
  | failed (mode : machine.registers.mode = .running) {fault : Fault} (guest : fault.IsGuest) :
    Steps machine (.refused fault) (machine.stopped machine.attempt fault)

variable {config : Config} {machine left : Machine} {result : StepResult} {entry : TraceEntry}
  {fault : Fault}

/-- A step of a sound machine is of one of the kinds. -/
theorem Sound.steps (sound : machine.Sound config) (stepped : machine.step = (result, left)) :
    machine.Steps result left := by
  cases mode : machine.registers.mode with
  | halted =>
    simp only [Machine.step, mode, Prod.mk.injEq] at stepped
    obtain ⟨rfl, rfl⟩ := stepped
    exact .halted mode
  | awaitingKey =>
    rw [step_of_awaiting mode] at stepped
    cases queued : machine.board.keypad.queue with
    | nil =>
      rw [pollKey_empty queued] at stepped
      obtain ⟨rfl, rfl⟩ := Prod.mk.inj stepped
      exact .fruitless mode queued
    | cons key rest =>
      -- A wait has a register to fill and an address to go on from.
      obtain ⟨fetchable, x, register⟩ := sound.waits.waiting mode
      obtain ⟨word, polled⟩ :=
        pollKey_press sound.registers.toFull register fetchable queued
      rw [polled] at stepped
      obtain ⟨rfl, rfl⟩ := Prod.mk.inj stepped
      exact .delivered mode register queued
  -- The result of a running machine tells which way its word has gone.
  | running =>
    rw [step_of_running mode] at stepped
    cases result with
    | completed entry =>
      obtain ⟨word, board, result, fetched, done, rfl⟩ := executeNext_completed stepped
      rw [executeNext_of_fetched fetched, done] at stepped
      obtain rfl := StepResult.completed.inj (Prod.mk.inj stepped).1
      exact .executed mode fetched done
    | waiting => exact absurd stepped (executeNext_ne_waiting machine left)
    | refused fault =>
      obtain ⟨guest, rfl⟩ := executeNext_refused sound.registers stepped
      exact .failed mode guest

/-- What a step of a sound machine leaves is sound. -/
theorem Sound.stepped (sound : machine.Sound config) (stepped : machine.step = (result, left)) :
    left.Sound config := by
  have next := sound.step
  rwa [stepped] at next

/-- Settling in an idle loop counts no cycle. -/
theorem settle_cycles (machine : Machine) (word : Word) (result : Registers) :
    (machine.settle word result).cycleCount = result.cycleCount := by
  unfold settle
  split <;> rfl

/-- A completed step counts one cycle. -/
theorem Sound.step_completed (sound : machine.Sound config)
    (stepped : machine.step = (.completed entry, left)) :
    left.registers.cycleCount = machine.registers.cycleCount + 1 := by
  -- A delivery counts its cycle, and so does every executed word.
  cases sound.steps stepped with
  | delivered => rfl
  | @executed _ word board result _ done =>
    show (machine.settle word result).cycleCount = _
    rw [settle_cycles, execute_cycles sound.registers done]

/-- A step that finds no key leaves a waiting machine as it was. -/
theorem Sound.step_waiting (sound : machine.Sound config)
    (stepped : machine.step = (.waiting, left)) :
    left = machine ∧ machine.registers.mode = .awaitingKey := by
  cases sound.steps stepped with
  | fruitless mode => exact ⟨rfl, mode⟩

/-- A refused step counts no cycle and leaves a halted machine. -/
theorem Sound.step_stopped (sound : machine.Sound config)
    (stepped : machine.step = (.refused fault, left)) :
    left.registers.mode = .halted ∧
      left.registers.cycleCount = machine.registers.cycleCount := by
  cases sound.steps stepped with
  | halted mode => exact ⟨mode, rfl⟩
  | failed => exact ⟨rfl, rfl⟩

/-- A step of a machine that has not halted is refused by a fault of its program only. -/
theorem Sound.step_guest (sound : machine.Sound config)
    (awake : machine.registers.mode ≠ .halted)
    (stepped : machine.step = (.refused fault, left)) : fault.IsGuest := by
  cases sound.steps stepped with
  | halted mode => exact absurd mode awake
  | failed _ guest => exact guest

end Machine

end Chip8
