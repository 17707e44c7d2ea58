import Chip8.Proofs.Machine.Sequence
import Chip8.Proofs.Registers.CallStack
import Chip8.Proofs.Timers

/-!
Calls and returns of a running program as moves of its call stack.

Only two instructions touch the ring of saved frames, so a machine makes the moves of the calls and
returns that it executes, and a call whose callee stays within fifteen levels is returned from.
-/

namespace Chip8

/-- What an instruction at an address does with the call stack. -/
def Instruction.stackMove? (instruction : Instruction) (location : Int) : Option StackMove :=
  match instruction with
  | .call _ => some (.push location)
  | .ret => some .pop
  | _ => none

/-- What a word at an address does with the call stack. -/
def Word.stackMove? (word : Word) (location : Int) : Option StackMove :=
  word.decode.bind (·.stackMove? location)

/-- What a completed cycle did with the call stack. -/
def TraceEntry.stackMove? (entry : TraceEntry) : Option StackMove :=
  match entry.activity with
  | .executed word => word.stackMove? entry.pc
  | _ => none

/-- What a step did with the call stack. -/
def StepResult.stackMoves : StepResult → List StackMove
  | .completed entry => entry.stackMove?.toList
  | _ => []

namespace Machine

/-- What up to some number of steps do with the call stack. -/
def movesOfSteps : Nat → Machine → List StackMove
  | 0, _ => []
  | budget + 1, machine =>
    if machine.registers.halted then []
    else
      match machine.step with
      | (.completed entry, moved) => entry.stackMove?.toList ++ movesOfSteps budget moved
      | _ => []

end Machine

/-- What an event does with the call stack, if it does not restart the machine. -/
def Event.stackMoves (event : Event) (machine : Machine) : List StackMove :=
  match event with
  | .step => machine.step.1.stackMoves
  | .run limit => Machine.movesOfSteps (limit - machine.registers.cycleCount).toNat machine
  | _ => []

/-- What a sequence of events does with the call stack. -/
def Machine.stackMoves (machine : Machine) : List Event → List StackMove
  | [] => []
  | event :: rest => event.stackMoves machine ++ (event.apply machine).stackMoves rest

/-! ### Instructions -/

variable {config : Config} {registers result : Registers} {board left : Board} {word : Word}

/-- The ring of a bounded register file is whole. -/
theorem Registers.Bounded.whole {entry : Int} (bounded : registers.Bounded entry) :
    registers.ring.Whole :=
  ⟨bounded.frames, bounded.pointer.1, bounded.pointer.2⟩

/-- An executed instruction moves the ring as a call or a return does, or not at all. -/
theorem Instruction.perform_ring (full : registers.Full) (whole : registers.ring.Whole)
    (instruction : Instruction) (done : instruction.perform registers board = (.ok result, left)) :
    result.ring = registers.ring.afterAll (instruction.stackMove? registers.pc).toList := by
  cases instruction with
  | call target =>
    simp only [perform, operation, fields, Operation.perform, full.pushFrame_eq, ok_bind,
      pure_eq_ok, Prod.mk.injEq, Except.ok.injEq] at done
    exact done.1 ▸ rfl
  | ret =>
    simp only [perform, operation, Operation.perform, full.popFrame_eq whole.low whole.high,
      ok_bind, pure_eq_ok, Prod.mk.injEq, Except.ok.injEq] at done
    exact done.1 ▸ rfl
  | storeDecimal x =>
    simp only [perform, operation, fields, Operation.perform, full.value_eq] at done
    exact Operation.storeBlock_done done ▸ rfl
  | storeRegisters x => exact Operation.storeBlock_done done ▸ rfl
  | loadRegisters x =>
    have loaded : board.loadBlock registers (x.val + 1) = .ok result := (Prod.mk.inj done).1
    cases read : board.memory.readBlock registers.i (x.val + 1 : Nat) with
    | error fault =>
      rw [Board.loadBlock, read] at loaded
      cases loaded
    | ok bytes =>
      rw [Operation.loadBlock_eq full (by omega) read] at loaded
      exact Except.ok.inj loaded ▸ rfl
  | draw x y rows =>
    simp only [perform, operation, fields, Operation.perform] at done
    split at done
    · rw [full.load_eq] at done
      exact Except.ok.inj (Prod.mk.inj done).1 ▸ rfl
    · cases (Prod.mk.inj done).1
  | _ =>
    -- All others write general registers, the counter, the address register, timers or the mode.
    simp only [perform, operation, fields, Operation.perform, full.value_eq, full.peek_zero,
      full.load_eq, full.loadWithFlag_eq, full.combine_eq, Registers.awaitKey_eq, ok_bind,
      pure_eq_ok, Prod.mk.injEq, Except.ok.injEq] at done
    exact done.1 ▸ rfl

/-- An executed word moves the ring as its instruction does. -/
theorem execute_ring (full : registers.Full) (whole : registers.ring.Whole)
    (done : execute word registers board = (.ok result, left)) :
    result.ring = registers.ring.afterAll (word.stackMove? registers.pc).toList := by
  -- Both sides ask what the word means, and the counter is no part of the ring.
  obtain ⟨instruction, moved, decoded, performed, rfl⟩ := execute_done done
  rw [Word.stackMove?, decoded]
  have kept := instruction.perform_ring full whole performed
  exact kept

namespace Machine

variable {machine : Machine}

/-! ### Events -/

/-- Settling in an idle loop leaves the ring alone. -/
theorem settle_ring (machine : Machine) (word : Word) (result : Registers) :
    (machine.settle word result).ring = result.ring := by
  unfold settle
  split <;> rfl

/-- A step moves the ring as the word that it completes does. -/
theorem step_ring (sound : machine.Sound config) :
    machine.step.2.registers.ring =
      machine.registers.ring.afterAll machine.step.1.stackMoves := by
  cases mode : machine.registers.mode with
  | halted =>
    have still : machine.step = (.refused .halted, machine) := by simp only [step, mode]
    rw [still]
    rfl
  | awaitingKey =>
    have polled : machine.step = machine.pollKey := by simp only [step, mode]
    obtain ⟨fetchable, x, register⟩ := sound.waits.waiting mode
    cases queued : machine.board.keypad.queue with
    | nil =>
      rw [polled, pollKey_empty queued]
      rfl
    | cons key rest =>
      -- A delivered key is no executed word.
      obtain ⟨word, outcome⟩ :=
        pollKey_press sound.registers.toFull register fetchable queued
      rw [polled, outcome]
      rfl
  | running =>
    have executed : machine.step = machine.executeNext := by simp only [step, mode]
    rw [executed]
    rcases outcome : machine.executeNext with ⟨entry | - | fault, after⟩
    · -- The cycle that completed is that of the fetched word, and settling leaves its ring alone.
      obtain ⟨word, board, result, fetched, done, -⟩ := executeNext_completed outcome
      rw [executeNext_of_fetched fetched, done] at outcome
      obtain ⟨completed, rfl⟩ := Prod.mk.inj outcome
      obtain rfl := StepResult.completed.inj completed
      have moved := execute_ring sound.registers.toFull sound.registers.whole done
      exact (settle_ring machine word result).trans moved
    · exact absurd outcome (executeNext_ne_waiting machine after)
    · obtain ⟨-, rfl⟩ := executeNext_refused sound.registers outcome
      rfl

/-- Steps move the ring as the words that they complete do. -/
theorem stepMany_ring (budget : Nat) (sound : machine.Sound config) :
    (stepMany budget machine).2.registers.ring =
      machine.registers.ring.afterAll (movesOfSteps budget machine) := by
  -- What the first step moves lies below what the steps behind it do.
  induction budget generalizing machine with
  | zero => rfl
  | succ budget ih =>
    have moved := step_ring sound
    have next := sound.step
    unfold stepMany movesOfSteps
    split
    · rfl
    · rcases outcome : machine.step with ⟨entry | - | fault, after⟩
      · rw [outcome] at moved next
        rw [CallRing.afterAll_append]
        exact moved ▸ ih next
      · rw [outcome] at moved
        exact moved
      · rw [outcome] at moved
        exact moved

/-- An event moves the ring as its steps do, unless it restarts the machine. -/
theorem apply_ring (sound : machine.Sound config) (event : Event)
    (quiet : event.restarts = false) :
    (event.apply machine).registers.ring =
      machine.registers.ring.afterAll (event.stackMoves machine) := by
  cases event with
  | loadImage | loadSource | reset => cases quiet
  | step => exact step_ring sound
  | run limit =>
    -- The verdict of a run is read off the machine that its steps have left.
    have moved := stepMany_ring (limit - machine.registers.cycleCount).toNat sound
    simp only [Event.apply, Event.stackMoves, run, ← moved]
    split <;> rename_i ran
    · rw [ran]
    · rw [ran]
      split <;> rfl
  | tick => rfl
  | advance seconds =>
    show (machine.timers.advance machine.registers seconds).2.1.ring = machine.registers.ring
    rw [Timers.advance_registers]
    rfl
  | press number => rw [apply_press]; rfl
  | release number => rw [apply_release]; rfl
  | releaseAll | write | writeBlock | fill | stop => rfl

/-- A sequence of events moves the ring as its events do in order. -/
theorem after_ring (sound : machine.Sound config) {events : List Event}
    (quiet : ∀ event ∈ events, event.restarts = false) :
    (machine.after events).registers.ring =
      machine.registers.ring.afterAll (machine.stackMoves events) := by
  -- The moves of the first event come before those of the others.
  induction events generalizing machine with
  | nil => rfl
  | cons event rest ih =>
    obtain ⟨first, quiet⟩ := List.forall_mem_cons.mp quiet
    rw [after_cons, stackMoves, CallRing.afterAll_append, ← apply_ring sound event first]
    exact ih (sound.apply event) quiet

/-! ### Calls and returns -/

/-- The machine runs, and the word at its counter has an instruction. -/
def About (machine : Machine) (instruction : Instruction) : Prop :=
  machine.registers.mode = .running ∧
    ∃ word, machine.board.memory.readWord machine.registers.pc = .ok word ∧
      word.decode = some instruction

/-- What a machine is about can be computed. -/
theorem about_iff {instruction : Instruction} :
    machine.About instruction ↔ machine.registers.mode = .running ∧
      (machine.board.memory.readWord machine.registers.pc).toOption.bind Word.decode =
        some instruction := by
  -- A word that cannot be fetched means nothing.
  unfold About
  cases machine.board.memory.readWord machine.registers.pc with
  | error fault => simp [Except.toOption]
  | ok word => simp [Except.toOption]

/-- Whether a machine is about an instruction is decided by its mode and its next word. -/
instance (machine : Machine) (instruction : Instruction) :
    Decidable (machine.About instruction) :=
  decidable_of_iff _ about_iff.symm

/-- A machine completes the instruction that it is about, if the instruction is performed. -/
theorem step_of_about {instruction : Instruction} (about : machine.About instruction)
    (other : instruction.operation ≠ .jump) {moved : Registers}
    (performed : instruction.perform machine.registers machine.board = (.ok moved, left)) :
    ∃ entry after, machine.step = (.completed entry, after) ∧
      after.registers = moved.countCycle := by
  obtain ⟨running, word, fetched, decoded⟩ := about
  have executed : execute word machine.registers machine.board = (.ok moved.countCycle, left) :=
    execute_performed decoded performed
  have stepped : machine.step = machine.executeNext := by simp only [step, running]
  rw [stepped, executeNext_of_fetched fetched, executed]
  refine ⟨_, _, rfl, settle_of_ne_jump ?_ moved.countCycle⟩
  -- Only a jump could be an idle loop.
  rw [Word.operation?, decoded, Option.map_some]
  exact fun same => other (Option.some.inj same)

/-- A machine about to call saves its address. -/
theorem step_of_call (sound : machine.Sound config) {target : Address}
    (about : machine.About (.call target)) :
    machine.step.2.registers.ring =
      machine.registers.ring.afterAll [.push machine.registers.pc] := by
  -- On a full file a push is not refused, and jumping leaves the ring alone.
  have pushed := sound.registers.toFull.pushFrame_eq machine.registers.pc
  have performed : Instruction.perform (.call target) machine.registers machine.board =
      (.ok ((machine.registers.withRing
        (machine.registers.ring.after (.push machine.registers.pc))).jump target.val),
        machine.board) := by
    simp only [Instruction.perform, Instruction.operation, Instruction.fields, Operation.perform,
      pushed, ok_bind]
    rfl
  obtain ⟨entry, after, stepped, left⟩ := step_of_about about (by rintro ⟨⟩) performed
  rw [stepped, left]
  rfl

/-- A machine about to return goes on behind the address that was saved last. -/
theorem step_of_return (sound : machine.Sound config) (about : machine.About .ret) :
    ∃ entry after, machine.step = (.completed entry, after) ∧
      after.registers.ring = machine.registers.ring.afterAll [.pop] ∧
      after.registers.pc = (machine.registers.ring.newest % 65536 + 2) % 65536 := by
  -- On a full file a pop is not refused, and the counter goes on behind the call.
  have whole := sound.registers.whole
  have popped := sound.registers.toFull.popFrame_eq whole.low whole.high
  have performed : Instruction.perform .ret machine.registers machine.board =
      (.ok (((machine.registers.withRing (machine.registers.ring.after .pop)).jump
        machine.registers.ring.newest).advance), machine.board) := by
    simp only [Instruction.perform, Instruction.operation, Operation.perform, popped, ok_bind]
    rfl
  obtain ⟨entry, after, stepped, left⟩ := step_of_about about (by decide) performed
  refine ⟨entry, after, stepped, ?_, ?_⟩
  · rw [left]
    rfl
  · rw [left]
    rfl

/-- A call whose callee nests at most fifteen further levels is returned from. -/
theorem returns_of_call (sound : machine.Sound config) {target : Address} {callee : List Event}
    (calls : machine.About (.call target)) (quiet : ∀ event ∈ callee, event.restarts = false)
    (settled : idealStack [] (machine.step.2.stackMoves callee) = some [])
    (shallow : greatestDepth 0 (machine.step.2.stackMoves callee) ≤ 15)
    (returns : (machine.after (.step :: callee)).About .ret) :
    ∃ entry after, (machine.after (.step :: callee)).step = (.completed entry, after) ∧
      after.registers.pc = machine.registers.pc + 2 ∧
      after.registers.sp = machine.registers.sp := by
  -- The call saves its address first, and then the callee makes its moves.
  have ring : (machine.after (.step :: callee)).registers.ring = machine.registers.ring.afterAll
      (.push machine.registers.pc :: machine.step.2.stackMoves callee) := by
    have moved := after_ring sound.step quiet
    rw [step_of_call sound calls] at moved
    exact moved
  obtain ⟨newest, pointer⟩ := CallRing.newest_afterAll sound.registers.whole machine.registers.pc
    settled shallow
  obtain ⟨entry, after, stepped, popped, counter⟩ :=
    step_of_return (sound.after (.step :: callee)) returns
  refine ⟨entry, after, stepped, ?_, ?_⟩
  · -- The call was fetched, so its address is far from where the counter would wrap.
    obtain ⟨-, word, fetched, -⟩ := calls
    obtain ⟨low, high⟩ := Memory.fetchable_of_readWord fetched
    rw [counter, ring, newest]
    omega
  · rw [ring, ← CallRing.afterAll_append] at popped
    exact (congrArg CallRing.pointer popped).trans pointer

end Machine

/--
The ring of sixteen frames simulates an unbounded stack.

On a full register file whose pointer is a place of the ring, every sequence of pushes and pops
that never pops the unbounded stack when it is empty succeeds, with a pointer that counts the depth
modulo sixteen.
A frame is overwritten exactly when the depth gets sixteen frames beyond its own, and it is popped
as it was pushed if the depth has stayed within fifteen.
In a reachable machine a call whose callee nests at most fifteen further levels, whatever else its
host does meanwhile, is returned from: its return completes, behind the call and with the stack
pointer from before it.
-/
theorem call_stack_simulated :
    (∀ registers : Registers, registers.Full → 0 ≤ registers.sp → registers.sp ≤ 15 →
      registers.SimulatesStack) ∧
    ∀ (config : Config) (machine : Machine) (target : Address) (callee : List Event),
      machine.Reachable config → machine.About (.call target) →
      (∀ event ∈ callee, event.restarts = false) →
      idealStack [] (machine.step.2.stackMoves callee) = some [] →
      greatestDepth 0 (machine.step.2.stackMoves callee) ≤ 15 →
      (machine.after (.step :: callee)).About .ret →
      ∃ entry after, (machine.after (.step :: callee)).step = (.completed entry, after) ∧
        after.registers.pc = machine.registers.pc + 2 ∧
        after.registers.sp = machine.registers.sp := by
  refine ⟨?_, ?_⟩
  · intro registers full low high
    exact full.simulatesStack low high
  · intro config machine target callee reachable calls quiet settled shallow returns
    exact Machine.returns_of_call reachable.sound calls quiet settled shallow returns

/-- A standard machine about to call a routine that calls another one. -/
def nesting : Machine :=
  Machine.standard.after
    [.loadImage [0x22, 0x06, 0x12, 0x02, 0x00, 0xEE, 0x22, 0x04, 0x00, 0xEE]]

/-- The routine is returned from behind its call, after it has called the other one. -/
theorem call_stack_simulated_nesting :
    ({ sp := 15 } : Registers).SimulatesStack ∧ nesting.About (.call 0x206) ∧
      nesting.step.2.stackMoves [.step, .tick, .step] = [.push 0x206, .pop] ∧
      ∃ entry after, (nesting.after [.step, .step, .tick, .step]).step = (.completed entry, after) ∧
        after.registers.pc = 0x202 ∧ after.registers.sp = 0 := by
  -- The program calls a routine that does one thing and returns, with a tick in between.
  have reachable : nesting.Reachable .standard := Machine.Reachable.standard.after _
  have calls : nesting.About (.call 0x206) := by decide +kernel
  have moves : nesting.step.2.stackMoves [.step, .tick, .step] = [.push 0x206, .pop] := by
    decide +kernel
  have returns : (nesting.after [.step, .step, .tick, .step]).About .ret := by decide +kernel
  obtain ⟨entry, after, stepped, counter, pointer⟩ :=
    call_stack_simulated.2 .standard nesting 0x206 [.step, .tick, .step] reachable calls
      (by decide) (by rw [moves]; rfl) (by rw [moves]; decide) returns
  have start : nesting.registers.pc = 0x200 ∧ nesting.registers.sp = 0 := by decide +kernel
  refine ⟨?_, calls, moves, entry, after, stepped, ?_, ?_⟩
  · exact call_stack_simulated.1 _ ⟨rfl, rfl⟩ (by decide) (by decide)
  · rw [counter, start.1]
    rfl
  · rw [pointer, start.2]

end Chip8
