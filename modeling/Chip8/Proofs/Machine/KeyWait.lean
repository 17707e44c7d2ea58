import Chip8.Proofs.Machine.Sequence
import Chip8.Proofs.Timers

/-!
Waits for a key.

The instruction that begins a wait empties the queue, so all that is queued while the wait lasts
was pressed during the wait, and the first poll that finds a press takes the oldest of these.
-/

namespace Chip8

/-- The key of an event that presses a key which is up. -/
def Event.freshKey? (event : Event) (machine : Machine) : Option Key :=
  match event with
  | .press number => machine.board.keypad.freshKey? number
  | _ => none

namespace Machine

/-- The keys that go down from being up in a sequence of events, in order. -/
def freshPresses (machine : Machine) : List Event → List Key
  | [] => []
  | event :: rest => (event.freshKey? machine).toList ++ (event.apply machine).freshPresses rest

/-- Between two moments only timers and keypad have moved. -/
structure Lingers (earlier later : Machine) : Prop where
  /-- Of the register file only the two timers may differ. -/
  registers : later.registers = { earlier.registers with
    delayTimer := later.registers.delayTimer, soundTimer := later.registers.soundTimer }
  /-- Memory, display and random bytes are the same. -/
  board : later.board = { earlier.board with keypad := later.board.keypad }
  /-- The driver has counted its ticks and followed the sound timer. -/
  driver : later.timers = { earlier.timers with
    tone := later.timers.tone, ticks := later.timers.ticks }
  /-- Settings, trace, last fault and image are the same. -/
  kept : later = { earlier with
    registers := later.registers, board := later.board, timers := later.timers }

namespace Lingers

/-- Nothing moves in no time. -/
theorem refl (machine : Machine) : machine.Lingers machine :=
  ⟨rfl, rfl, rfl, rfl⟩

/-- What moves in two spans of time are timers and keypad, if it is so in each. -/
theorem trans {first second third : Machine} (earlier : first.Lingers second)
    (later : second.Lingers third) : first.Lingers third where
  registers := by rw [later.registers, earlier.registers]
  board := by rw [later.board, earlier.board]
  driver := by rw [later.driver, earlier.driver]
  kept := by rw [later.kept, earlier.kept]

/-- A machine with another keypad lingers. -/
theorem withKeypad (machine : Machine) (keypad : Keypad) :
    machine.Lingers (machine.withKeypad keypad) :=
  ⟨rfl, rfl, rfl, rfl⟩

/-- A tick moves the timers only. -/
theorem tick (machine : Machine) : machine.Lingers machine.tick :=
  ⟨rfl, rfl, rfl, rfl⟩

end Lingers

/-- What the instruction that waits for a key makes of a machine. -/
structure BeginsWait (machine : Machine) (x : Nibble) (began : Machine) : Prop where
  /-- The counter stays, and the instruction counts as executed. -/
  registers : began.registers = { machine.registers with
    mode := .awaitingKey, keyRegister := some x.val
    cycleCount := machine.registers.cycleCount + 1 }
  /-- The queue is emptied, and held keys stay held. -/
  board : began.board = { machine.board with keypad := machine.board.keypad.flush }

/-- The presses of a sequence are those of its beginning and those of what follows. -/
theorem freshPresses_append (machine : Machine) (first second : List Event) :
    machine.freshPresses (first ++ second) =
      machine.freshPresses first ++ (machine.after first).freshPresses second := by
  -- Whether a press counts is decided by the machine that it meets.
  induction first generalizing machine with
  | nil => rfl
  | cons event rest ih =>
    rw [List.cons_append, freshPresses, ih, freshPresses, List.append_assoc, after_cons]

/-- What a wait is like after events in which no key went down. -/
structure StaysWaiting (began : Machine) (events : List Event) : Prop where
  /-- No step has completed a cycle. -/
  results : ∀ result ∈ began.results events, result = .waiting
  /-- The next step will not do so either, and changes nothing. -/
  next : (began.after events).step = (.waiting, began.after events)
  /-- Only timers and keypad have moved. -/
  lingers : began.Lingers (began.after events)
  /-- Of the keypad only held keys have changed. -/
  empty : (began.after events).board.keypad.queue = []

/-- What the step that finds a key makes of a machine that has waited since another moment. -/
structure EndsWait (began ready : Machine) (x : Nibble) (key : Key) : Prop where
  /-- The cycle is completed by the key. -/
  completed : ∃ entry word, ready.step.1 = .completed entry ∧
    entry.activity = .keyDelivered word x.val key
  /-- Beside the register of the wait, counter, mode and cycles, only the timers differ. -/
  registers : ready.step.2.registers = { began.registers with
    v := began.registers.v.set x.val key.val, pc := began.registers.pc + 2
    mode := .running, keyRegister := none, cycleCount := began.registers.cycleCount + 1
    delayTimer := ready.registers.delayTimer, soundTimer := ready.registers.soundTimer }
  /-- One press is taken from the queue, and memory, display and random bytes are the same. -/
  board : ready.step.2.board = { began.board with
    keypad := { ready.board.keypad with queue := ready.board.keypad.queue.tail } }

variable {config : Config} {machine : Machine} {x : Nibble} {presses : List Key}

/-! ### What goes on during a wait -/

/-- Ticks and keys do nothing to the queue but to add a fresh press, and keep the mode. -/
theorem apply_unstepped {event : Event} (play : event.isPlay = true) (other : event ≠ .step)
    (machine : Machine) :
    (event.apply machine).board.keypad.queue =
        (event.freshKey? machine).toList.foldl Keypad.enqueue machine.board.keypad.queue ∧
      (event.apply machine).registers.mode = machine.registers.mode := by
  -- Keys go through the keypad alone, and time goes to the two timers.
  cases event with
  | step => exact absurd rfl other
  | tick => exact ⟨rfl, rfl⟩
  | advance seconds =>
    have mode : (machine.timers.advance machine.registers seconds).2.1.mode =
        machine.registers.mode := by rw [Timers.advance_registers]
    exact ⟨rfl, mode⟩
  | press number =>
    rw [apply_press]
    exact ⟨queue_of_press machine.board.keypad number, rfl⟩
  | release number =>
    rw [apply_release]
    exact ⟨Keypad.release_queue machine.board.keypad number, rfl⟩
  | releaseAll => exact ⟨rfl, rfl⟩
  | _ => cases play

/-- Events other than steps move timers and keypad only, and queue the fresh presses. -/
theorem lingers_apply (event : Event) (live : event.isLive = true) (other : event ≠ .step)
    (queue : machine.board.keypad.queue = Keypad.latest presses) :
    machine.Lingers (event.apply machine) ∧
      (event.apply machine).board.keypad.queue =
        Keypad.latest (presses ++ (event.freshKey? machine).toList) := by
  have play : event.isPlay = true := by cases event <;> first | rfl | cases live
  constructor
  · cases event with
    | step => exact absurd rfl other
    | tick => exact .tick machine
    | press number => exact apply_press machine number ▸ .withKeypad ..
    | release number => exact apply_release machine number ▸ .withKeypad ..
    | releaseAll => exact .withKeypad ..
    | _ => cases live
  · -- A fresh press is put behind the others, and any other event leaves them alone.
    rw [(apply_unstepped play other machine).1, queue]
    cases event.freshKey? machine with
    | none => simp
    | some key => exact Keypad.enqueue_latest presses key

/-- Without a step in between, the queue of a wait holds the latest fresh presses. -/
theorem lingers_busy {busy : List Event}
    (live : ∀ event ∈ busy, event.isLive = true ∧ event ≠ .step)
    (queue : machine.board.keypad.queue = Keypad.latest presses) :
    machine.Lingers (machine.after busy) ∧
      (machine.after busy).board.keypad.queue =
        Keypad.latest (presses ++ machine.freshPresses busy) := by
  -- Each event adds its press to those that are remembered.
  induction busy generalizing machine presses with
  | nil => exact ⟨.refl machine, by simpa [freshPresses] using queue⟩
  | cons event rest ih =>
    obtain ⟨⟨use, other⟩, live⟩ := List.forall_mem_cons.mp live
    obtain ⟨moved, queued⟩ := lingers_apply event use other queue
    obtain ⟨lingers, held⟩ := ih live queued
    exact ⟨moved.trans lingers, by simpa [freshPresses] using held⟩

/-- A poll of a wait without a press leaves everything as it was. -/
theorem step_of_empty (waiting : machine.registers.mode = .awaitingKey)
    (empty : machine.board.keypad.queue = []) : machine.step = (.waiting, machine) := by
  -- The queue is what a poll looks at.
  simp only [step, waiting, pollKey_empty empty]

/-- A wait goes on while no fresh press is made, however often the machine is stepped. -/
theorem staysWaiting {quiet : List Event} (live : ∀ event ∈ quiet, event.isLive = true)
    (waiting : machine.registers.mode = .awaitingKey) (empty : machine.board.keypad.queue = [])
    (silent : machine.freshPresses quiet = []) : machine.StaysWaiting quiet := by
  induction quiet generalizing machine with
  | nil => exact ⟨by simp, step_of_empty waiting empty, .refl machine, empty⟩
  | cons event rest ih =>
    obtain ⟨use, later⟩ := List.forall_mem_cons.mp live
    simp only [freshPresses, List.append_eq_nil_iff, Option.toList_eq_nil_iff] at silent
    by_cases poll : event = .step
    · -- A step finds the queue empty and leaves everything as it was.
      subst poll
      have poll := step_of_empty waiting empty
      have same : Event.step.apply machine = machine := by rw [Event.apply, poll]
      rw [same] at silent
      have goes := ih later waiting empty silent.2
      refine ⟨?_, ?_, ?_, ?_⟩ <;> simp only [after_cons, results_cons, same]
      · simpa [Event.outcome?, poll] using goes.results
      · exact goes.next
      · exact goes.lingers
      · exact goes.empty
    · obtain ⟨moved, queued⟩ := @lingers_apply machine [] event use poll empty
      have still : (event.apply machine).registers.mode = .awaitingKey := by
        rw [moved.registers, waiting]
      have goes := ih later still (by simpa [silent.1, Keypad.latest] using queued) silent.2
      refine ⟨?_, goes.next, moved.trans goes.lingers, goes.empty⟩
      simpa [Event.outcome?_of_ne_step machine poll] using goes.results

/-! ### Beginning and end -/

/-- The instruction that waits for a key begins a wait in place, with an emptied queue. -/
theorem beginsWait {word : Word} (running : machine.registers.mode = .running)
    (fetched : machine.board.memory.readWord machine.registers.pc = .ok word)
    (waits : word.decode = some (.waitKey x)) :
    (∃ entry, machine.step.1 = .completed entry) ∧ machine.BeginsWait x machine.step.2 := by
  -- The word is executed without a check that could fail, and is no jump.
  have executed : execute word machine.registers machine.board =
      (.ok { machine.registers with
          mode := .awaitingKey, keyRegister := some x.val
          cycleCount := machine.registers.cycleCount + 1 },
        { machine.board with keypad := machine.board.keypad.flush }) := by
    rw [Word.execute_of_decode waits]
    simp only [Instruction.perform, Instruction.operation, Instruction.fields, Operation.perform,
      Registers.awaitKey_eq, Except.map, Registers.countCycle]
  have settled := @settle_of_ne_jump machine word
    (by simp [Word.operation?, waits, Instruction.operation])
  simp only [step, running, executeNext, fetched, executed, settled]
  exact ⟨⟨_, rfl⟩, rfl, rfl⟩

/-- The step that finds the queue filled ends the wait with the oldest press in it. -/
theorem endsWait {began ready : Machine} (sound : ready.Sound config)
    (lingers : began.Lingers ready) (waiting : began.registers.mode = .awaitingKey)
    (register : began.registers.keyRegister = some (x.val : Int)) {key : Key}
    (oldest : ready.board.keypad.queue.head? = some key) : began.EndsWait ready x key := by
  -- The wait is still on, so its instruction can be fetched again.
  have still : ready.registers.mode = .awaitingKey := by rw [lingers.registers, waiting]
  have target : ready.registers.keyRegister = some (x.val : Int) := by
    rw [lingers.registers, register]
  obtain ⟨fetchable, -⟩ := sound.waits.waiting still
  obtain ⟨rest, queued⟩ := List.head?_eq_some_iff.mp oldest
  obtain ⟨word, polled⟩ :=
    pollKey_press sound.registers.toFull target fetchable queued
  have step : ready.step = ready.pollKey := by simp only [step, still]
  rw [polled] at step
  refine ⟨⟨_, word, by rw [step], rfl⟩, ?_, ?_⟩
  · -- A fetched address is far from where the counter would wrap, and a key is a byte.
    obtain ⟨low, high⟩ := fetchable
    have next : (ready.registers.pc + 2) % 65536 = ready.registers.pc + 2 := by omega
    have byte : (key.val : Int) % 256 = key.val := by omega
    rw [step]
    simp only [record, filled, Registers.countCycle, Registers.advance, Registers.advanceBy,
      Registers.resume, Int.mul_one, next, byte]
    rw [lingers.registers]
  · rw [step, queued]
    simp only [record, filled, List.tail_cons]
    rw [lingers.board]

/--
Waits for a key are safe.

The instruction that waits empties the queue and stays where it is.
While no key goes down, every step returns without an entry and leaves the machine as it was.
The first step after a key went down stores the oldest of the latest presses, all of which were
made since the wait began, and goes on behind the instruction.
-/
theorem key_wait_safe (reachable : machine.Reachable config)
    (running : machine.registers.mode = .running) {word : Word}
    (fetched : machine.board.memory.readWord machine.registers.pc = .ok word)
    (waits : word.decode = some (.waitKey x)) :
    ∃ entry began, machine.step = (.completed entry, began) ∧ machine.BeginsWait x began ∧
      ∀ quiet, (∀ event ∈ quiet, event.isLive = true) → began.freshPresses quiet = [] →
        began.StaysWaiting quiet ∧
        ∀ busy, (∀ event ∈ busy, event.isLive = true ∧ event ≠ .step) →
          began.freshPresses (quiet ++ busy) ≠ [] →
          ∃ key, (Keypad.latest (began.freshPresses (quiet ++ busy))).head? = some key ∧
            began.EndsWait (began.after (quiet ++ busy)) x key := by
  obtain ⟨⟨entry, completed⟩, begins⟩ := beginsWait running fetched waits
  have sound := reachable.sound.step
  rcases outcome : machine.step with ⟨result, began⟩
  rw [outcome] at completed begins sound
  refine ⟨entry, began, Prod.ext completed rfl, begins, fun quiet live silent => ?_⟩
  have waiting : began.registers.mode = .awaitingKey := by rw [begins.registers]
  have register : began.registers.keyRegister = some (x.val : Int) := by rw [begins.registers]
  have stays := staysWaiting live waiting (by rw [begins.board]; rfl) silent
  refine ⟨stays, fun busy live pressed => ?_⟩
  have since : began.freshPresses (quiet ++ busy) = (began.after quiet).freshPresses busy := by
    rw [freshPresses_append, silent, List.nil_append]
  rw [since] at pressed ⊢
  rw [after_append]
  -- The queue is the latest presses, because it was empty before the first of them.
  obtain ⟨moved, queue⟩ := @lingers_busy (began.after quiet) [] busy live stays.empty
  rw [List.nil_append] at queue
  obtain ⟨key, rest, oldest⟩ := List.ne_nil_iff_exists_cons.mp (Keypad.latest_ne_nil pressed)
  have head : (Keypad.latest ((began.after quiet).freshPresses busy)).head? = some key := by
    rw [oldest, List.head?_cons]
  exact ⟨key, head, endsWait ((sound.after quiet).after busy) (stays.lingers.trans moved) waiting
    register (queue ▸ head)⟩

/-- A standard machine about to wait for a key, while key 3 is held and queued. -/
def holding : Machine :=
  Machine.standard.after [.loadImage [0xF0, 0x0A], .press 3]

/-- The held key does not end the wait, and of two keys pressed later the first one does. -/
theorem key_wait_safe_holding :
    holding.board.keypad.queue = [3] ∧ ∃ entry began, holding.step = (.completed entry, began) ∧
      began.StaysWaiting [.step, .press 3, .tick, .release 3, .step] ∧
      began.EndsWait (began.after ([.step, .press 3, .tick, .release 3, .step] ++
        [.press 5, .release 5, .tick, .press 7])) 0 5 := by
  have reachable : holding.Reachable .standard := Reachable.standard.after _
  -- The word at the counter is computed, and so are the presses while the machine waits.
  have word : (holding.board.memory.readWord holding.registers.pc).toOption = some 0xF00A := by
    decide +kernel
  rcases fetched : holding.board.memory.readWord holding.registers.pc with fault | found
  · simp [fetched, Except.toOption] at word
  obtain rfl : found = 0xF00A := by simpa [fetched, Except.toOption] using word
  obtain ⟨entry, began, step, -, wait⟩ :=
    key_wait_safe reachable (by decide +kernel) fetched (x := 0) (by decide +kernel)
  obtain rfl : holding.step.2 = began := by rw [step]
  obtain ⟨stays, ends⟩ := wait [.step, .press 3, .tick, .release 3, .step] (by simp [Event.isLive])
    (by decide +kernel)
  have pressed : holding.step.2.freshPresses ([.step, .press 3, .tick, .release 3, .step] ++
      [.press 5, .release 5, .tick, .press 7]) = [5, 7] := by decide +kernel
  obtain ⟨key, oldest, ended⟩ := ends [.press 5, .release 5, .tick, .press 7]
    (by simp [Event.isLive]) (fun none => by rw [pressed] at none; cases none)
  rw [pressed] at oldest
  obtain rfl : 5 = key := Option.some.inj oldest
  exact ⟨by decide +kernel, entry, _, step, stays, ended⟩

end Machine

end Chip8
