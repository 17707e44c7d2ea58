import Chip8.Proofs.Execution.Beside
import Chip8.Proofs.Machine.Sequence
import Chip8.Proofs.Timers

/-!
What can be told of a machine by using it.

Presses that no wait can take, the number of times the tone was switched, the clock of the timers
and, outside a realtime loop, a request to stop are there, but two machines that differ in nothing
else answer alike to whatever is done with them, and go on to differ in nothing else.
-/

namespace Chip8

/-! ### Timers -/

namespace Timers

/-- The driver without what it remembers and nobody looks at. -/
def seen (timers : Timers Tone) : Timers Tone :=
  { timers with tone := { timers.tone with transitions := 0 }, background := false }

variable {first second : Timers Tone}

/-- A driver that is told to sound or to be silent shows what it was told. -/
theorem setTone_seen (timers : Timers Tone) (active : Bool) :
    (timers.setTone active).seen = { timers.seen with tone := { active } } := by
  -- Only the number of changes depends on what the tone was told before.
  simp only [setTone, ToneSink.setActive, seen]
  split
  · rename_i same
    rw [same]
  · rfl

/-- Drivers that show the same do so after they are told the same. -/
theorem setTone_alike (alike : first.seen = second.seen) (active : Bool) :
    (first.setTone active).seen = (second.setTone active).seen := by
  rw [setTone_seen, setTone_seen, alike]

/-- Drivers that show the same do so after any number of ticks, and count down alike. -/
theorem tickMany_alike (alike : first.seen = second.seen) (registers : Registers) (count : Nat) :
    (first.tickMany registers count).1 = (second.tickMany registers count).1 ∧
      (first.tickMany registers count).2.seen = (second.tickMany registers count).2.seen := by
  -- A tick is counted by both drivers, and then both tell the tone the same.
  induction count generalizing first second registers with
  | zero => exact ⟨rfl, alike⟩
  | succ count ih =>
    have counted : ({ first with ticks := first.ticks + 1 } : Timers Tone).seen =
        ({ second with ticks := second.ticks + 1 } : Timers Tone).seen :=
      congrArg (fun timers : Timers Tone => { timers with ticks := timers.ticks + 1 }) alike
    exact ih (setTone_alike counted _) registers.tickTimers

/-- Drivers that show the same do so after the same time, and answer and count down alike. -/
theorem advance_alike (alike : first.seen = second.seen) (registers : Registers) (seconds : Float) :
    (first.advance registers seconds).1 = (second.advance registers seconds).1 ∧
      (first.advance registers seconds).2.1 = (second.advance registers seconds).2.1 ∧
      (first.advance registers seconds).2.2.seen = (second.advance registers seconds).2.2.seen := by
  -- The number of ticks is computed from the rate and the seconds that were kept.
  have rate : first.rate = second.rate := congrArg (·.rate) alike
  have remainder : first.remainder = second.remainder := congrArg (·.remainder) alike
  have kept : ∀ remainder, ({ first with rate := second.rate, remainder } : Timers Tone).seen =
      ({ second with remainder } : Timers Tone).seen := fun remainder =>
    congrArg (fun timers : Timers Tone => { timers with rate := second.rate, remainder }) alike
  simp only [advance, rate, remainder]
  cases wholePart ((second.remainder + seconds) * second.rate) with
  | error fault => exact ⟨rfl, rfl, kept _⟩
  | ok count => exact ⟨rfl, tickMany_alike (kept _) registers count.toNat⟩

end Timers

namespace Machine

/-- What of a machine is looked at, beside what always is. -/
structure View where
  /-- Presses are looked at even if no wait can take them. -/
  presses : Bool
  /-- A request to stop is looked at, because a realtime loop is running. -/
  stop : Bool

/-- The machine with another queue, driver and request to stop. -/
def withHidden (machine : Machine) (queue : List Key) (timers : Timers Tone)
    (stopRequested : Bool) : Machine :=
  { machine with board := machine.board.withQueue queue, timers, stopRequested }

/-- Two machines differ in nothing that is looked at. -/
structure Alike (view : View) (first second : Machine) : Prop where
  /-- All but the queue, the driver and requests to stop is the same. -/
  kept : second =
    first.withHidden second.board.keypad.queue second.timers second.stopRequested
  /-- The drivers show the same. -/
  timers : first.timers.seen = second.timers.seen
  /-- A queue that a wait can take a press from is the same, and any that is looked at. -/
  presses : view.presses = true ∨ first.registers.mode = .awaitingKey →
    second.board.keypad.queue = first.board.keypad.queue
  /-- A request to stop that is looked at is the same. -/
  stop : view.stop = true → second.stopRequested = first.stopRequested

/-- What is settled waits only if it waited before. -/
theorem mode_of_settle {machine : Machine} {word : Word} {result : Registers}
    (waiting : (machine.settle word result).mode = .awaitingKey) : result.mode = .awaitingKey := by
  -- An idle loop is halted, and anything else is kept.
  unfold settle at waiting
  split at waiting
  · cases waiting
  · exact waiting

namespace Alike

variable {view : View} {first second : Machine}

/-- Machines that are alike have the same register file. -/
theorem registers (alike : Alike view first second) : second.registers = first.registers := by
  rw [alike.kept]
  rfl

/-- Machines that are alike have the same settings. -/
theorem config (alike : Alike view first second) : second.config = first.config := by
  rw [alike.kept]
  rfl

/-- Machines that are alike have the same memory. -/
theorem memory (alike : Alike view first second) :
    second.board.memory = first.board.memory := by
  rw [alike.kept]
  rfl

/-- Machines that are alike have the same keys held. -/
theorem held (alike : Alike view first second) :
    second.board.keypad.held = first.board.keypad.held := by
  rw [alike.kept]
  rfl

/-- Machines that are alike have the same keypad, if its queue is looked at. -/
theorem keypad (alike : Alike view first second)
    (looked : view.presses = true ∨ first.registers.mode = .awaitingKey) :
    second.board.keypad = first.board.keypad := by
  -- Held keys are always looked at.
  have queue := alike.presses looked
  rw [alike.kept] at queue ⊢
  simp only [withHidden, Board.withQueue] at queue ⊢
  rw [queue]

/-- Machines that are alike record alike. -/
theorem record (alike : Alike view first second) (entry : TraceEntry) :
    Alike view (first.record entry) (second.record entry) :=
  ⟨by rw [alike.kept]; rfl, alike.timers, alike.presses, alike.stop⟩

/-- Machines that are alike are so with keypads that hold the same and, if looked at, queue so. -/
theorem withKeypad (alike : Alike view first second) {keypad keypad' : Keypad}
    (held : keypad'.held = keypad.held)
    (queue : view.presses = true ∨ first.registers.mode = .awaitingKey →
      keypad'.queue = keypad.queue) :
    Alike view (first.withKeypad keypad) (second.withKeypad keypad') := by
  refine ⟨?_, alike.timers, queue, alike.stop⟩
  obtain ⟨up, queued⟩ := keypad'
  subst held
  rw [alike.kept]
  rfl

/-- Machines that are alike, queues included, are so with the same register file. -/
theorem withRegisters (alike : Alike view first second)
    (queue : second.board.keypad.queue = first.board.keypad.queue) (registers : Registers) :
    Alike view { first with registers } { second with registers } :=
  ⟨by rw [alike.kept]; rfl, alike.timers, fun _ => queue, alike.stop⟩

/-- Machines that are alike make the same entries. -/
theorem entry (alike : Alike view first second) : second.entry = first.entry := by
  -- An entry takes no more of a machine than its registers.
  unfold Machine.entry
  rw [alike.registers]

/-- Taking note of a failed cycle keeps machines alike. -/
theorem fail (alike : Alike view first second) (activity : Activity) (fault : Fault) :
    (second.fail activity fault).1 = (first.fail activity fault).1 ∧
      Alike view (first.fail activity fault).2 (second.fail activity fault).2 := by
  unfold Machine.fail
  rw [alike.registers, alike.entry]
  split
  · -- A halted machine does not wait.
    refine ⟨rfl, by rw [alike.kept]; rfl, alike.timers, fun looked => alike.presses ?_, alike.stop⟩
    exact looked.imp_right fun waiting => nomatch waiting
  · exact ⟨rfl, alike⟩

/-- Machines that are alike fetch the same. -/
theorem fetched (alike : Alike view first second) :
    second.board.memory.readWord second.registers.pc =
      first.board.memory.readWord first.registers.pc := by
  rw [alike.kept]
  rfl

/-- A queue that is hidden outside of waits is the same after a word. -/
theorem queue_execute (alike : Alike view first second) (word : Word)
    (looked : view.presses = true ∨ word.operation? = some .waitKey) :
    (if word.operation? = some .waitKey then [] else second.board.keypad.queue) =
      (execute word first.registers first.board).2.keypad.queue := by
  -- A word that waits for a key empties the queue, and no other word touches it.
  rw [execute_queue]
  split
  · rfl
  · rename_i other
    exact alike.presses (.inl (looked.resolve_right other))

/-- Executing the next word keeps running machines alike. -/
theorem executeNext (alike : Alike view first second) (running : first.registers.mode = .running) :
    second.executeNext.1 = first.executeNext.1 ∧
      Alike view first.executeNext.2 second.executeNext.2 := by
  have board : second.board = first.board.withQueue second.board.keypad.queue := by
    rw [alike.kept]
    rfl
  have settle : ∀ word, second.settle word = first.settle word := by
    rw [alike.kept]
    exact fun _ => rfl
  cases fetched : first.board.memory.readWord first.registers.pc with
  | error fault =>
    rw [executeNext_of_unfetched fetched, executeNext_of_unfetched (alike.fetched.trans fetched)]
    exact alike.fail .unfetched fault
  | ok word =>
    rw [executeNext_of_fetched fetched, executeNext_of_fetched (alike.fetched.trans fetched)]
    -- The word is executed on boards that differ in their queues only.
    have queued := alike.queue_execute word
    rw [alike.registers, board, execute_withQueue]
    rcases outcome : execute word first.registers first.board with ⟨fault | result, left⟩
    · rw [outcome] at queued
      have landed : Alike view { first with board := left } { second with
          board := left.withQueue
            (if word.operation? = some .waitKey then [] else second.board.keypad.queue) } :=
        ⟨by rw [alike.kept]; rfl, alike.timers,
          fun looked => queued (looked.imp_right fun waiting => by simp [running] at waiting),
          alike.stop⟩
      exact landed.fail (.executed word) fault
    · rw [outcome] at queued
      -- Only a word that waits for a key can end in a wait, and it has emptied the queue.
      have waits : (first.settle word result).mode = .awaitingKey →
          word.operation? = some .waitKey := fun waiting =>
        execute_waits running outcome (mode_of_settle waiting)
      simp only [land, settle, alike.entry, true_and]
      refine ⟨?_, ?_, fun looked => queued (looked.imp_right waits), alike.stop⟩
      · rw [alike.kept]
        rfl
      · rw [Machine.moved, Machine.moved, settle]
        exact Timers.setTone_alike alike.timers _

/-- A poll keeps waiting machines alike. -/
theorem pollKey (alike : Alike view first second)
    (waiting : first.registers.mode = .awaitingKey) :
    second.pollKey.1 = first.pollKey.1 ∧ Alike view first.pollKey.2 second.pollKey.2 := by
  -- A wait looks at the queue, so both machines have the same keypad.
  have keypad := alike.keypad (.inr waiting)
  have fetched := alike.fetched
  rw [alike.registers] at fetched
  simp only [Machine.pollKey, keypad, alike.registers, alike.entry, fetched]
  rcases first.board.keypad.takePress with ⟨- | key, left⟩
  · exact ⟨rfl, alike⟩
  · -- The same press is taken by both, whatever becomes of it.
    have polled : Alike view (first.withKeypad left) (second.withKeypad left) :=
      alike.withKeypad rfl fun _ => rfl
    dsimp only
    rcases deliver first.registers (first.registers.keyRegister.getD 0) key with fault | after
    · exact ⟨rfl, polled.withRegisters rfl first.registers⟩
    · dsimp only
      rcases first.board.memory.readWord first.registers.pc with fault | word
      · exact ⟨rfl, polled.withRegisters rfl after⟩
      · exact ⟨rfl, (polled.withRegisters rfl after).record _⟩

/-- A step keeps machines alike and ends alike. -/
theorem step (alike : Alike view first second) :
    second.step.1 = first.step.1 ∧ Alike view first.step.2 second.step.2 := by
  -- The mode is the same, and so is what each mode does.
  unfold Machine.step
  rw [alike.registers]
  cases mode : first.registers.mode with
  | halted => exact ⟨rfl, alike⟩
  | awaitingKey => exact alike.pollKey mode
  | running => exact alike.executeNext mode

/-- Any number of steps keeps machines alike and ends alike. -/
theorem stepMany (alike : Alike view first second) (budget : Nat) :
    (Machine.stepMany budget second).1 = (Machine.stepMany budget first).1 ∧
      Alike view (Machine.stepMany budget first).2 (Machine.stepMany budget second).2 := by
  -- The run goes on only behind a completed step, from machines that are alike again.
  induction budget generalizing first second with
  | zero => exact ⟨rfl, alike⟩
  | succ budget ih =>
    obtain ⟨same, next⟩ := alike.step
    unfold Machine.stepMany
    rw [alike.registers]
    split
    · exact ⟨rfl, alike⟩
    · rcases earlier : first.step with ⟨result, left⟩
      rcases later : second.step with ⟨result', right⟩
      rw [earlier, later] at same next
      subst same
      cases result' with
      | completed entry => exact ih next
      | waiting => exact ⟨rfl, next⟩
      | refused fault => exact ⟨rfl, next⟩

/-- A headless run keeps machines alike and ends alike. -/
theorem run (alike : Alike view first second) (limit : Int) :
    (second.run limit).1 = (first.run limit).1 ∧
      Alike view (first.run limit).2 (second.run limit).2 := by
  -- The limit leaves as many steps to both, as they have counted the same cycles.
  obtain ⟨same, next⟩ := alike.stepMany (limit - first.registers.cycleCount).toNat
  unfold Machine.run
  rw [alike.registers]
  rcases earlier : Machine.stepMany (limit - first.registers.cycleCount).toNat first with
    ⟨stop, left⟩
  rcases later : Machine.stepMany (limit - first.registers.cycleCount).toNat second with
    ⟨stop', right⟩
  rw [earlier, later] at same next
  subst same
  cases stop' with
  | some fault => exact ⟨rfl, next⟩
  | none =>
    dsimp only
    rw [next.registers]
    split
    · exact ⟨rfl, next⟩
    · exact ⟨rfl, next⟩

/-- Machines that are alike are so with timers that show the same and have counted alike. -/
theorem withTimers (alike : Alike view first second) {registers : Registers}
    (mode : registers.mode = first.registers.mode) {timers timers' : Timers Tone}
    (shown : timers.seen = timers'.seen) :
    Alike view { first with registers, timers } { second with registers, timers := timers' } :=
  ⟨by rw [alike.kept]; rfl, shown,
    fun looked => alike.presses (looked.imp_right fun waiting => mode ▸ waiting), alike.stop⟩

/-- Turning seconds into ticks keeps machines alike, with the same number of ticks. -/
theorem advanceTimers (alike : Alike view first second) (seconds : Float) :
    (second.advanceTimers seconds).1 = (first.advanceTimers seconds).1 ∧
      Alike view (first.advanceTimers seconds).2 (second.advanceTimers seconds).2 := by
  -- The ticks depend on rate and remainder, which are seen by the driver of either.
  obtain ⟨count, registers, timers⟩ :=
    Timers.advance_alike alike.timers first.registers seconds
  simp only [Machine.advanceTimers, alike.registers]
  refine ⟨count.symm, ?_⟩
  rw [← registers]
  have mode := congrArg Registers.mode (first.timers.advance_registers first.registers seconds)
  exact alike.withTimers mode timers

/-- Ticks keep machines alike. -/
theorem tickMany (alike : Alike view first second) (count : Nat) :
    Alike view (first.tickMany count) (second.tickMany count) := by
  obtain ⟨registers, timers⟩ := Timers.tickMany_alike alike.timers first.registers count
  simp only [Machine.tickMany, alike.registers]
  rw [← registers]
  -- No tick looks at the mode.
  have mode := congrArg Registers.mode (first.timers.tickMany_registers first.registers count)
  exact alike.withTimers mode timers

/-- Machines that are alike are so after they are restarted. -/
theorem restart (alike : Alike view first second) : Alike view first.restart second.restart := by
  have reset : first.timers.reset.seen = second.timers.reset.seen :=
    congrArg (fun timers : Timers Tone => { timers with ticks := 0, remainder := 0.0 }) alike.timers
  refine ⟨by rw [alike.kept]; rfl, ?_, fun looked => alike.presses ?_, alike.stop⟩
  · simp only [Machine.restart, alike.config]
    exact Timers.setTone_alike reset _
  · -- A machine at its entry point does not wait.
    exact looked.imp_right fun waiting => nomatch waiting

/-- Machines that are alike are so with the same memory. -/
theorem withMemory (alike : Alike view first second) (memory : Memory) :
    Alike view (first.withMemory memory) (second.withMemory memory) :=
  ⟨by rw [alike.kept]; rfl, alike.timers, alike.presses, alike.stop⟩

/-- Loading an image keeps machines alike, and both answer the same. -/
theorem loadImage (alike : Alike view first second) (image : List Byte) :
    (second.loadImage image).1 = (first.loadImage image).1 ∧
      Alike view (first.loadImage image).2 (second.loadImage image).2 := by
  simp only [Machine.loadImage, alike.config, alike.memory]
  rcases first.board.memory.load image first.config.entryPoint with ⟨fault | ⟨⟩, memory⟩
  · exact ⟨rfl, alike.withMemory memory⟩
  · -- The image is remembered by machines with the same memory, which are then restarted.
    have filled := alike.withMemory memory
    refine ⟨rfl, restart ⟨?_, filled.timers, filled.presses, filled.stop⟩⟩
    rw [filled.kept]
    rfl

/-- Loading a source text keeps machines alike, and both answer the same. -/
theorem loadSource (alike : Alike view first second) (source : List Char) :
    (second.loadSource source).1 = (first.loadSource source).1 ∧
      Alike view (first.loadSource source).2 (second.loadSource source).2 := by
  simp only [Machine.loadSource, alike.config]
  rcases assemble source first.config.entryPoint with error | image
  · exact ⟨rfl, alike⟩
  · -- A refused image is reported as a refused source.
    exact (alike.loadImage image).imp_left (congrArg (Except.mapError LoadError.refused))

/-- Resetting keeps machines alike, and both answer the same. -/
theorem reset (alike : Alike view first second) :
    second.reset.1 = first.reset.1 ∧ Alike view first.reset.2 second.reset.2 := by
  have program : second.program = first.program := by rw [alike.kept]; rfl
  rw [Machine.reset, Machine.reset, program]
  exact alike.loadImage first.program

/-- Pressing a key keeps machines alike, and both answer the same. -/
theorem pressKey (alike : Alike view first second) (number : Int) :
    (second.pressKey number).1 = (first.pressKey number).1 ∧
      Alike view (first.pressKey number).2 (second.pressKey number).2 := by
  simp only [Machine.pressKey, Keypad.press, alike.held]
  rcases Keypad.key number with fault | key
  · exact ⟨rfl, alike.withKeypad alike.held alike.presses⟩
  · -- A key that is up is put behind equal queues, if these are looked at.
    dsimp only
    split
    · exact ⟨rfl, alike.withKeypad alike.held alike.presses⟩
    · exact ⟨rfl, alike.withKeypad rfl fun looked => by rw [alike.presses looked]⟩

/-- Releasing a key keeps machines alike, and both answer the same. -/
theorem releaseKey (alike : Alike view first second) (number : Int) :
    (second.releaseKey number).1 = (first.releaseKey number).1 ∧
      Alike view (first.releaseKey number).2 (second.releaseKey number).2 := by
  -- The number is checked before a key is released, and the queue is no part of it.
  simp only [Machine.releaseKey, Keypad.release, alike.held]
  rcases Keypad.key number with fault | key
  · exact ⟨rfl, alike.withKeypad alike.held alike.presses⟩
  · exact ⟨rfl, alike.withKeypad rfl alike.presses⟩

/-- Asking the loop to stop keeps machines alike. -/
theorem requestStop (alike : Alike view first second) :
    Alike view first.requestStop second.requestStop :=
  ⟨by rw [alike.kept]; rfl, alike.timers, alike.presses, fun _ => rfl⟩

end Alike

end Machine

/-! ### Events -/

/-- What a host is told about a use that it makes of a machine. -/
inductive Answer where
  /-- The use was made, and there is nothing to tell. -/
  | done
  /-- A step ended in some way. -/
  | stepped (result : StepResult)
  /-- Some number of ticks came of the time. -/
  | ticked (count : Int)
  /-- The use was refused, or ended by a fault. -/
  | refused (fault : Fault)
  /-- A source text was not loaded. -/
  | unloaded (error : LoadError)
  deriving DecidableEq

/-- What a host is told about a use of which it only learns whether it was refused. -/
def Answer.of {ε : Type} (refusal : ε → Answer) : Except ε Unit → Answer
  | .ok () => .done
  | .error reason => refusal reason

/-- What a host is told about an event. -/
def Event.answer (event : Event) (machine : Machine) : Answer :=
  match event with
  | .loadImage image => .of .refused (machine.loadImage image).1
  | .loadSource source => .of .unloaded (machine.loadSource source).1
  | .reset => .of .refused machine.reset.1
  | .step => .stepped machine.step.1
  | .run limit => .of .refused (machine.run limit).1
  | .advance seconds =>
    match (machine.advanceTimers seconds).1 with
    | .ok count => .ticked count
    | .error fault => .refused fault
  | .press number => .of .refused (machine.pressKey number).1
  | .release number => .of .refused (machine.releaseKey number).1
  | .write address value => .of .refused (machine.board.memory.write address value).1
  | .writeBlock address values => .of .refused (machine.board.memory.writeBlock address values).1
  | .fill image base => .of .refused (machine.board.memory.load image base).1
  | .tick | .releaseAll | .stop => .done

namespace Machine

variable {view : View} {first second : Machine}

/-- Every event keeps machines alike, and a host is told the same about it. -/
theorem Alike.apply (alike : Alike view first second) (event : Event) :
    event.answer second = event.answer first ∧
      Alike view (event.apply first) (event.apply second) := by
  -- Loads and keys are answered alike, and the rest looks at nothing that is hidden.
  cases event with
  | loadImage image => exact (alike.loadImage image).imp_left (congrArg (Answer.of .refused))
  | loadSource source => exact (alike.loadSource source).imp_left (congrArg (Answer.of .unloaded))
  | reset => exact alike.reset.imp_left (congrArg (Answer.of .refused))
  | step => exact alike.step.imp_left (congrArg Answer.stepped)
  | run limit => exact (alike.run limit).imp_left (congrArg (Answer.of .refused))
  | tick => exact ⟨rfl, alike.tickMany 1⟩
  | advance seconds =>
    obtain ⟨count, left⟩ := alike.advanceTimers seconds
    refine ⟨?_, left⟩
    simp only [Event.answer, count]
  | press number => exact (alike.pressKey number).imp_left (congrArg (Answer.of .refused))
  | release number => exact (alike.releaseKey number).imp_left (congrArg (Answer.of .refused))
  | releaseAll => exact ⟨rfl, alike.withKeypad (by rfl) alike.presses⟩
  | write | writeBlock | fill =>
    simp only [Event.answer, Event.apply, alike.memory, true_and]
    exact alike.withMemory _
  | stop => exact ⟨rfl, alike.requestStop⟩

end Machine

end Chip8
