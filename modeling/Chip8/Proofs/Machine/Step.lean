import Chip8.Proofs.Execution
import Chip8.Machine.Basic

/-!
The ways in which one step of a machine can end, as equations on the machine that it leaves.

They are stated for machines whose register file is in its ranges, which all reachable ones are.
-/

namespace Chip8

/-- Memory refused an access, or a word has no instruction: the faults of a guest program. -/
def Fault.IsGuest (fault : Fault) : Prop :=
  (∃ access location, fault = .outOfBounds access location) ∨
    ∃ word location, fault = .unknownOpcode word location

/-- A fault of the guest program stops the machine. -/
theorem Fault.IsGuest.stops {fault : Fault} (guest : fault.IsGuest) :
    fault.stopsMachine = true := by
  rcases guest with ⟨access, location, rfl⟩ | ⟨word, location, rfl⟩ <;> rfl

namespace Machine

variable {entry : Int} {machine after : Machine} {fault : Fault}

/-- The machine after a fault of the guest program: halted, with the fault noted and recorded. -/
def stopped (machine : Machine) (activity : Activity) (fault : Fault) : Machine :=
  { machine with registers := machine.registers.halt, lastError := some fault }.record
    (machine.entry activity machine.registers.halt (some fault))

/-- What a running machine attempts: the word at its counter, if one can be fetched there. -/
def attempt (machine : Machine) : Activity :=
  match machine.board.memory.readWord machine.registers.pc with
  | .ok word => .executed word
  | .error _ => .unfetched

/-- A fault of the guest program stops the machine and changes nothing else. -/
theorem fail_guest (machine : Machine) (activity : Activity) (guest : fault.IsGuest) :
    machine.fail activity fault = (.refused fault, machine.stopped activity fault) := by
  -- Guest faults are among those that stop a machine.
  simp only [fail, guest.stops, if_true, stopped]

/-- A running machine executes the next word. -/
theorem step_of_running (running : machine.registers.mode = .running) :
    machine.step = machine.executeNext := by
  simp only [step, running]

/-- A waiting machine looks for a key. -/
theorem step_of_awaiting (awaiting : machine.registers.mode = .awaitingKey) :
    machine.step = machine.pollKey := by
  simp only [step, awaiting]

/-- A running machine that refuses a step has met a fault of its guest program. -/
theorem executeNext_refused (bounded : machine.registers.Bounded entry)
    (refused : machine.executeNext = (.refused fault, after)) :
    fault.IsGuest ∧ after = machine.stopped machine.attempt fault := by
  unfold executeNext at refused
  split at refused
  · -- The word could not be fetched.
    rename_i cause unfetched
    obtain ⟨location, rfl⟩ := Memory.readWord_error unfetched
    have guest : (Fault.outOfBounds .read location).IsGuest := .inl ⟨_, _, rfl⟩
    rw [fail_guest machine _ guest] at refused
    obtain ⟨same, left⟩ := Prod.mk.inj refused
    cases same
    exact ⟨guest, by simp only [← left, attempt, unfetched]⟩
  · rename_i word fetched
    split at refused
    · -- The word was refused, which leaves the board as it was.
      rename_i cause board executed
      have same := execute_refused_board bounded.toFull executed
      subst same
      have guest : cause.IsGuest := by
        rcases execute_refused_fault bounded executed with outside | rfl
        · exact .inl outside
        · exact .inr ⟨_, _, rfl⟩
      rw [fail_guest _ _ guest] at refused
      obtain ⟨same, left⟩ := Prod.mk.inj refused
      cases same
      exact ⟨guest, by simp only [← left, attempt, fetched]⟩
    · -- An executed word is a completed cycle.
      cases (Prod.mk.inj refused).1

/-- Only jumps are looked at for idle loops. -/
theorem settle_of_ne_jump {word : Word} (other : word.operation? ≠ some .jump)
    (result : Registers) : machine.settle word result = result := by
  -- The comparison fails, whatever the settings say.
  have unlike : (word.operation? == some .jump) = false := by simpa using other
  simp [settle, unlike]

/-- The machine after an executed word. -/
def moved (machine : Machine) (word : Word) (board : Board) (result : Registers) : Machine :=
  { machine with
    board
    registers := machine.settle word result
    timers := machine.timers.syncTone (machine.settle word result) }.record
      (machine.entry (.executed word) (machine.settle word result) none)

/-- What the outcome of a word makes of a machine. -/
def land (machine : Machine) (word : Word) : Outcome → StepResult × Machine
  | (.error fault, board) => { machine with board }.fail (.executed word) fault
  | (.ok result, board) =>
    (.completed (machine.entry (.executed word) (machine.settle word result) none),
      machine.moved word board result)

/-- A machine that fetches a word executes it. -/
theorem executeNext_of_fetched {word : Word}
    (fetched : machine.board.memory.readWord machine.registers.pc = .ok word) :
    machine.executeNext = machine.land word (execute word machine.registers machine.board) := by
  -- Both answers of the word are dealt with alike on both sides.
  simp only [executeNext, fetched]
  rcases execute word machine.registers machine.board with ⟨fault | result, board⟩ <;> rfl

/-- A machine that cannot fetch a word fails. -/
theorem executeNext_of_unfetched
    (unfetched : machine.board.memory.readWord machine.registers.pc = .error fault) :
    machine.executeNext = machine.fail .unfetched fault := by
  simp only [executeNext, unfetched]

/-- A running machine that completes a step has fetched and executed a word. -/
theorem executeNext_completed {entry : TraceEntry}
    (completed : machine.executeNext = (.completed entry, after)) :
    ∃ word board result, machine.board.memory.readWord machine.registers.pc = .ok word ∧
      execute word machine.registers machine.board = (.ok result, board) ∧
      after = machine.moved word board result := by
  -- Both faults end in a verdict of their own, so the word was fetched and executed.
  unfold executeNext at completed
  split at completed
  · unfold fail at completed
    split at completed <;> cases (Prod.mk.inj completed).1
  · rename_i word fetched
    split at completed
    · unfold fail at completed
      split at completed <;> cases (Prod.mk.inj completed).1
    · rename_i result board executed
      exact ⟨word, board, result, fetched, executed, (Prod.mk.inj completed).2.symm⟩

/-- Executing a word never waits for a key by itself. -/
theorem executeNext_ne_waiting (machine after : Machine) :
    machine.executeNext ≠ (.waiting, after) := by
  -- Every branch completes or reports a fault.
  intro waiting
  unfold executeNext fail at waiting
  split at waiting
  · split at waiting <;> cases (Prod.mk.inj waiting).1
  · split at waiting
    · split at waiting <;> cases (Prod.mk.inj waiting).1
    · cases (Prod.mk.inj waiting).1

/-- The machine after its wait was ended by a key, in front of some other presses. -/
def filled (machine : Machine) (x : Nibble) (key : Key) (rest : List Key) : Machine :=
  { machine with
    board := { machine.board with keypad := { machine.board.keypad with queue := rest } }
    registers := { machine.registers with
      v := machine.registers.v.set x.val (key.val % 256) }.resume.advance.countCycle }

/-- The entry of a step that ends a wait with a key. -/
def filling (machine : Machine) (word : Word) (x : Nibble) (key : Key) : TraceEntry :=
  machine.entry (.keyDelivered word x.val key) (machine.filled x key []).registers none

/-- The register file after a key has ended the wait of a full file. -/
theorem deliver_eq {registers : Registers} (full : registers.Full) (x : Nibble) (key : Key) :
    deliver registers x.val key = .ok
      { registers with v := registers.v.set x.val (key.val % 256) }.resume.advance.countCycle := by
  -- The register of a wait is one of the sixteen, so storing the key cannot fail.
  simp [deliver, full.set_eq]

/-- A poll with an empty queue changes nothing. -/
theorem pollKey_empty (empty : machine.board.keypad.queue = []) :
    machine.pollKey = (.waiting, machine) := by
  -- There is no key to take, so the wait goes on.
  simp [pollKey, Keypad.takePress, empty]

/-- A poll with a press in the queue stores its key and completes the wait. -/
theorem pollKey_press (full : machine.registers.Full) {x : Nibble}
    (register : machine.registers.keyRegister = some (x.val : Int))
    (fetchable : Fetchable machine.registers.pc) {key : Key} {rest : List Key}
    (queued : machine.board.keypad.queue = key :: rest) :
    ∃ word, machine.pollKey = (.completed (machine.filling word x key),
      (machine.filled x key rest).record (machine.filling word x key)) := by
  -- The word of the wait is fetched again for the trace, from where it was executed.
  obtain ⟨word, fetched⟩ := machine.board.memory.readWord_of_fetchable fetchable
  simp only [pollKey, Keypad.takePress, queued, register, Option.getD_some,
    deliver_eq full x key, fetched]
  exact ⟨word, rfl⟩

end Machine

end Chip8
