import Chip8.Proofs.Execution.Beside
import Chip8.Proofs.Machine.Journal
import Chip8.Proofs.Timers

/-!
Execution without timers.

Only one instruction reads a timer, the one that copies the delay timer into a register.
As long as it is not executed, no tick makes a difference to anything but the timers themselves.
-/

namespace Chip8

/-- The register file with both timers run out. -/
def Registers.timeless (registers : Registers) : Registers :=
  { registers with delayTimer := 0, soundTimer := 0 }

/-- The entry with both timers run out in both of its register files. -/
def TraceEntry.timeless (entry : TraceEntry) : TraceEntry :=
  { entry with before := entry.before.timeless, after := entry.after.timeless }

/-- The result of a step with both timers run out in its entry. -/
def StepResult.timeless : StepResult → StepResult
  | .completed entry => .completed entry.timeless
  | .waiting => .waiting
  | .refused fault => .refused fault

/-- The machine with timers that have run out, a driver that has not ticked, and a running loop. -/
def Machine.timeless (machine : Machine) : Machine :=
  { machine with
    registers := machine.registers.timeless
    timers := { rate := machine.timers.rate, tone := {} }
    recent := machine.recent.map TraceEntry.timeless
    stopRequested := false }

/-- The outcome of an instruction with both timers run out in its register file. -/
def Outcome.timeless (outcome : Outcome) : Outcome :=
  (outcome.1.map Registers.timeless, outcome.2)

/-- A step that is over, with timers that have run out in its result and in its machine. -/
def timelessStep (step : StepResult × Machine) : StepResult × Machine :=
  (step.1.timeless, step.2.timeless)

/-! ### Instructions -/

/-- An operation that does not read the delay timer comes to the same for all timers. -/
theorem Operation.perform_timeless {operation : Operation} (other : operation ≠ .readDelay)
    (fields : Word.Fields) (registers : Registers) (board : Board) :
    Outcome.timeless (operation.perform fields registers.timeless board) =
      Outcome.timeless (operation.perform fields registers board) := by
  -- What does not calculate begins a wait or sets a timer.
  cases calculates : operation.calculates with
  | true =>
    have beside := operation.perform_beside calculates fields registers registers.timeless board
    rw [show registers.beside registers.timeless = registers.timeless from rfl] at beside
    rw [beside]
    rcases outcome : operation.perform fields registers board with ⟨fault | result, left⟩
    · rfl
    · rw [perform_keeps calculates outcome]
      rfl
  | false =>
    cases operation with
    | waitKey =>
      simp only [perform, Registers.awaitKey_eq]
      rfl
    | readDelay => exact absurd rfl other
    -- What is written to a timer is read from a general register.
    | setDelay | setSound =>
      have same : registers.timeless.value fields.x = registers.value fields.x := rfl
      simp only [perform, same]
      cases registers.value fields.x <;> rfl
    | _ => cases calculates

/-- A word that does not read the delay timer comes to the same for all timers. -/
theorem execute_timeless {word : Word} (other : word.operation? ≠ some .readDelay)
    (registers : Registers) (board : Board) :
    Outcome.timeless (execute word registers.timeless board) =
      Outcome.timeless (execute word registers board) := by
  unfold execute
  cases meant : word.operation? with
  | none => rfl
  | some operation =>
    -- Counting the cycle does not look at the timers either.
    have unread : operation ≠ .readDelay := fun same => other (same ▸ meant)
    have counted : ∀ outcome : Outcome,
        Outcome.timeless (outcome.1.map Registers.countCycle, outcome.2) =
          ((Outcome.timeless outcome).1.map Registers.countCycle,
            (Outcome.timeless outcome).2) := by
      rintro ⟨fault | result, left⟩ <;> rfl
    dsimp only
    rw [counted, counted, Operation.perform_timeless unread word.fields registers board]

namespace Machine

variable {first second : Machine}

/-- The machine is about to execute the instruction that reads the delay timer. -/
def ReadsDelay (machine : Machine) : Prop :=
  machine.registers.mode = .running ∧ ∃ word, machine.board.memory.readWord machine.registers.pc =
    .ok word ∧ word.operation? = some .readDelay

/-- Whether the delay timer is about to be read can be computed. -/
instance (machine : Machine) : Decidable machine.ReadsDelay :=
  decidable_of_iff (machine.registers.mode = .running ∧
    (machine.board.memory.readWord machine.registers.pc).toOption.bind Word.operation? =
      some .readDelay) (by
    -- There is at most one word at the counter.
    unfold ReadsDelay
    cases machine.board.memory.readWord machine.registers.pc <;> simp [Except.toOption])

/-! ### Steps -/

/-- Recording an entry and forgetting the timers can be done in either order. -/
theorem record_timeless (machine : Machine) (entry : TraceEntry) :
    (machine.record entry).timeless = machine.timeless.record entry.timeless := by
  simp [record, timeless, List.map_take]

/-- The timers of an entry are those of its register files. -/
theorem entry_timeless (machine : Machine) (activity : Activity) (after : Registers)
    (fault : Option Fault) : (machine.entry activity after fault).timeless =
      machine.timeless.entry activity after.timeless fault :=
  rfl

/-- Whether the machine is in an idle loop does not depend on timers. -/
theorem settle_timeless (machine : Machine) (word : Word) (result : Registers) :
    (machine.settle word result).timeless = machine.timeless.settle word result.timeless := by
  -- An idle loop is told by the word and by the counter before and after it.
  unfold settle
  simp only [show result.timeless.pc = result.pc from rfl,
    show machine.timeless.registers.pc = machine.registers.pc from rfl,
    show machine.timeless.config = machine.config from rfl]
  split <;> rfl

/-- A machine that is stopped by a fault does not look at its timers. -/
theorem stopped_timeless (machine : Machine) (activity : Activity) (fault : Fault) :
    (machine.stopped activity fault).timeless = machine.timeless.stopped activity fault :=
  record_timeless _ _

/-- Behind an executed word there is nothing of the timers but the timers. -/
theorem moved_timeless (machine : Machine) (word : Word) (board : Board) (result : Registers) :
    (machine.moved word board result).timeless =
      ({ machine.timeless with
        board, registers := machine.timeless.settle word result.timeless } : Machine).record
        (machine.timeless.entry (.executed word) (machine.timeless.settle word result.timeless)
          none) := by
  rw [moved, record_timeless, entry_timeless, ← settle_timeless]
  rfl

/-- Taking note of a failed cycle comes to the same for all timers. -/
theorem fail_timeless (same : first.timeless = second.timeless) (activity : Activity)
    (fault : Fault) :
    timelessStep (first.fail activity fault) = timelessStep (second.fail activity fault) := by
  -- Whether a fault stops the machine does not depend on the machine.
  have stops :
      (first.stopped activity fault).timeless = (second.stopped activity fault).timeless := by
    rw [stopped_timeless, stopped_timeless, same]
  unfold fail
  split
  · exact congrArg (Prod.mk (StepResult.refused fault)) stops
  · exact congrArg (Prod.mk (StepResult.refused fault)) same

/-- Two outcomes of a word that differ in timers only come to the same for all timers. -/
theorem land_timeless (same : first.timeless = second.timeless) (word : Word)
    {outcome outcome' : Outcome}
    (outcomes : Outcome.timeless outcome = Outcome.timeless outcome') :
    timelessStep (first.land word outcome) = timelessStep (second.land word outcome') := by
  obtain ⟨fault | result, board⟩ := outcome <;> obtain ⟨fault' | result', board'⟩ := outcome' <;>
    obtain ⟨answers, boards⟩ := Prod.mk.inj outcomes
  · -- Both refuse with the same fault, on the same board.
    obtain rfl := Except.error.inj answers
    obtain rfl : board = board' := boards
    have landed : ({ first with board } : Machine).timeless = { second with board }.timeless :=
      congrArg (fun machine : Machine => { machine with board }) same
    exact fail_timeless landed (.executed word) fault
  · cases answers
  · cases answers
  · -- Both answer with files that differ in timers only.
    have results : result.timeless = result'.timeless := Except.ok.inj answers
    obtain rfl : board = board' := boards
    have settled : (first.settle word result).timeless = (second.settle word result').timeless := by
      rw [settle_timeless, settle_timeless, same, results]
    refine Prod.ext ?_ ?_
    · simp only [timelessStep, land, StepResult.timeless, entry_timeless, same, settled]
    · simp only [timelessStep, land, moved_timeless, same, results]

/-- Machines that differ in timers have the same board. -/
theorem board_of_timeless (same : first.timeless = second.timeless) :
    second.board = first.board :=
  congrArg (·.board) same.symm

/-- Machines that differ in timers are in the same mode. -/
theorem mode_of_timeless (same : first.timeless = second.timeless) :
    second.registers.mode = first.registers.mode :=
  congrArg (·.registers.mode) same.symm

/-- Machines that differ in timers fetch the same word. -/
theorem fetched_timeless (same : first.timeless = second.timeless) :
    second.board.memory.readWord second.registers.pc =
      first.board.memory.readWord first.registers.pc := by
  -- The word is found in memory at the counter, and neither is a timer.
  have pc : second.registers.pc = first.registers.pc := congrArg (·.registers.pc) same.symm
  rw [board_of_timeless same, pc]

/-- Running machines that differ in timers execute the next word alike. -/
theorem executeNext_timeless (same : first.timeless = second.timeless)
    (running : first.registers.mode = .running) (unread : ¬first.ReadsDelay) :
    timelessStep first.executeNext = timelessStep second.executeNext := by
  have board := board_of_timeless same
  have registers : first.registers.timeless = second.registers.timeless :=
    congrArg (·.registers) same
  cases fetched : first.board.memory.readWord first.registers.pc with
  | error fault =>
    rw [executeNext_of_unfetched fetched,
      executeNext_of_unfetched ((fetched_timeless same).trans fetched)]
    exact fail_timeless same .unfetched fault
  | ok word =>
    have other : word.operation? ≠ some .readDelay := fun reads =>
      unread ⟨running, word, fetched, reads⟩
    rw [executeNext_of_fetched fetched,
      executeNext_of_fetched ((fetched_timeless same).trans fetched), board]
    -- Both register files come to the same as the one with timers that have run out.
    refine land_timeless same word ?_
    rw [← execute_timeless other first.registers, registers, execute_timeless other]

/-- A key is delivered alike for all timers. -/
theorem deliver_timeless (registers : Registers) (register : Int) (key : Key) :
    deliver registers.timeless register key =
      (deliver registers register key).map Registers.timeless := by
  -- The register that is filled is looked for among the general registers.
  have general : registers.timeless.v = registers.v := rfl
  simp only [deliver, Registers.set, general]
  cases Registers.place register with
  | error fault => rfl
  | ok place =>
    simp only [ok_bind]
    split <;> rfl

/-- Machines that differ in timers still do so with another board and other register files. -/
theorem replaced_timeless (same : first.timeless = second.timeless) {board : Board}
    {left right : Registers} (registers : left.timeless = right.timeless) :
    ({ first with board, registers := left } : Machine).timeless =
      { second with board, registers := right }.timeless := by
  -- What is put in place of the board and the registers hides what was there.
  have replaced : ∀ (machine : Machine) (registers : Registers),
      ({ machine with board, registers } : Machine).timeless =
        { machine.timeless with board, registers := registers.timeless } := fun _ _ => rfl
  rw [replaced, replaced, same, registers]

/-- Waiting machines that differ in timers poll alike. -/
theorem pollKey_timeless (same : first.timeless = second.timeless) :
    timelessStep first.pollKey = timelessStep second.pollKey := by
  have board := board_of_timeless same
  have fetched := fetched_timeless same
  have target : second.registers.keyRegister = first.registers.keyRegister :=
    congrArg (·.registers.keyRegister) same.symm
  have registers : first.registers.timeless = second.registers.timeless :=
    congrArg (·.registers) same
  rw [board] at fetched
  simp only [pollKey, board, target, fetched]
  rcases first.board.keypad.takePress with ⟨- | key, keypad⟩
  · exact congrArg (Prod.mk StepResult.waiting) same
  · -- The key is delivered to files that differ in timers, and the wait ends for both.
    have delivered := deliver_timeless first.registers (first.registers.keyRegister.getD 0) key
    rw [registers, deliver_timeless] at delivered
    have moved := fun left right =>
      @replaced_timeless _ _ same { first.board with keypad } left right
    dsimp only
    generalize deliver first.registers (first.registers.keyRegister.getD 0) key = answer
      at delivered ⊢
    generalize deliver second.registers (first.registers.keyRegister.getD 0) key = answer'
      at delivered ⊢
    rcases answer with fault | after <;> rcases answer' with fault' | after'
    · obtain rfl := Except.error.inj delivered
      exact congrArg (Prod.mk (StepResult.refused fault')) (moved _ _ registers)
    · cases delivered
    · cases delivered
    · -- With the key delivered the word is read again, for the entry of both traces.
      have equal : after.timeless = after'.timeless := (Except.ok.inj delivered).symm
      dsimp only
      rcases first.board.memory.readWord first.registers.pc with fault | word
      · exact congrArg (Prod.mk (StepResult.refused fault)) (moved _ _ equal)
      · refine Prod.ext ?_ ?_
        · simp only [timelessStep, StepResult.timeless, entry_timeless, same, equal]
        · simp only [timelessStep, record_timeless, moved _ _ equal, entry_timeless, same, equal]

/-- Machines that differ in timers step alike, unless the step reads a timer. -/
theorem step_timeless (same : first.timeless = second.timeless) (unread : ¬first.ReadsDelay) :
    timelessStep first.step = timelessStep second.step := by
  -- Machines that differ in timers are in the same mode, and each mode has its lemma.
  unfold step
  rw [mode_of_timeless same]
  cases running : first.registers.mode with
  | halted => exact congrArg (Prod.mk (StepResult.refused .halted)) same
  | awaitingKey => exact pollKey_timeless same
  | running => exact executeNext_timeless same running unread

/-! ### Sequences -/

/-- Ticks make no difference to anything but the timers. -/
theorem apply_timing {event : Event} (timing : event.isTiming = true) (machine : Machine) :
    (event.apply machine).timeless = machine.timeless := by
  cases event with
  | tick => rfl
  | advance seconds =>
    -- Seconds leave the rate and everything but the two timers.
    have registers :
        (machine.timers.advance machine.registers seconds).2.1.timeless =
          machine.registers.timeless := by
      rw [Timers.advance_registers]
      rfl
    simp only [Event.apply, advanceTimers, timeless, registers, Timers.advance_rate]
  | _ => cases timing

/-- Keys go down and up alike for all timers. -/
theorem apply_key_timeless {event : Event} (key : event.isKey = true)
    (same : first.timeless = second.timeless) :
    (event.apply first).timeless = (event.apply second).timeless := by
  -- The keypad is on the board, which both machines share, and no key reads the timers.
  have board := board_of_timeless same
  have keypad : ∀ keypad,
      (first.withKeypad keypad).timeless = (second.withKeypad keypad).timeless := by
    intro keypad
    rw [withKeypad, withKeypad, board]
    exact replaced_timeless same (congrArg (·.registers) same)
  cases event with
  | press number => rw [apply_press, apply_press, board, keypad]
  | release number => rw [apply_release, apply_release, board, keypad]
  | releaseAll =>
    have released := keypad first.board.keypad.releaseAll
    rw [show Event.releaseAll.apply first = first.withKeypad first.board.keypad.releaseAll from rfl,
      keypad, ← board]
    rfl
  | _ => cases key

/-- No step in the sequence reads the delay timer. -/
def Unread (machine : Machine) : List Event → Prop
  | [] => True
  | event :: rest =>
    (event.isStep = true → ¬machine.ReadsDelay) ∧ (event.apply machine).Unread rest

/-- Whether a step of a sequence reads the delay timer can be computed. -/
def decideUnread (machine : Machine) : (events : List Event) → Decidable (machine.Unread events)
  | [] => isTrue trivial
  | event :: rest =>
    have := (event.apply machine).decideUnread rest
    inferInstanceAs (Decidable ((_ → ¬_) ∧ _))

instance (machine : Machine) (events : List Event) : Decidable (machine.Unread events) :=
  machine.decideUnread events

/-- Machines that differ in timers are about to read the delay timer together. -/
theorem readsDelay_iff (same : first.timeless = second.timeless) :
    first.ReadsDelay ↔ second.ReadsDelay := by
  rw [ReadsDelay, ReadsDelay, fetched_timeless same, mode_of_timeless same]

end Machine

/-- The events of a sequence other than ticks. -/
def withoutTicks (events : List Event) : List Event :=
  events.filter fun event => !event.isTiming

namespace Machine

variable {first second : Machine}

/-- Steps and keys come to the same for all timers, unless a step reads the delay timer. -/
theorem apply_timeless {event : Event} (play : event.isPlay = true)
    (lasting : event.isTiming = false) (same : first.timeless = second.timeless)
    (unread : event.isStep = true → ¬first.ReadsDelay) :
    (event.apply first).timeless = (event.apply second).timeless ∧
      (event.outcome? first).toList.map timelessStep =
        (event.outcome? second).toList.map timelessStep := by
  cases step : event.isStep with
  | true =>
    obtain rfl : event = .step := by cases event <;> first | rfl | cases step
    have stepped := step_timeless same (unread rfl)
    exact ⟨congrArg Prod.snd stepped, congrArg (fun outcome => [outcome]) stepped⟩
  | false =>
    -- What is neither a step nor a tick is a use of the keypad, which has no outcome.
    have key : event.isKey = true := by simpa [Event.isPlay, step, lasting] using play
    have other : event ≠ .step := fun same => by simp [same, Event.isStep] at step
    rw [Event.outcome?_of_ne_step first other, Event.outcome?_of_ne_step second other]
    exact ⟨apply_key_timeless key same, rfl⟩

/-- Ticks can be left out of a sequence in which no step reads the delay timer. -/
theorem withoutTicks_same {events : List Event} (plays : ∀ event ∈ events, event.isPlay = true)
    (same : first.timeless = second.timeless) :
    (first.Unread events ↔ second.Unread (withoutTicks events)) ∧
      (first.Unread events →
        (first.after events).timeless = (second.after (withoutTicks events)).timeless ∧
        (first.course events).map timelessStep =
          (second.course (withoutTicks events)).map timelessStep) := by
  induction events generalizing first second with
  | nil => exact ⟨Iff.rfl, fun _ => ⟨same, rfl⟩⟩
  | cons event rest ih =>
    obtain ⟨play, later⟩ := List.forall_mem_cons.mp plays
    cases timing : event.isTiming with
    | true =>
      -- The tick makes no difference and is left out.
      have still : event.isStep = false ∧ event.outcome? first = none := by
        cases event <;> simp_all [Event.isStep, Event.isTiming, Event.outcome?]
      obtain ⟨reads, runs⟩ := ih later ((apply_timing timing first).trans same)
      have left : withoutTicks (event :: rest) = withoutTicks rest := by simp [withoutTicks, timing]
      simp only [left, Unread, still.1, after_cons, course, still.2]
      simpa using ⟨reads, runs⟩
    | false =>
      have kept : withoutTicks (event :: rest) = event :: withoutTicks rest := by
        simp [withoutTicks, timing]
      have next := fun unread => apply_timeless play timing same unread
      simp only [kept, Unread, after_cons, course, List.map_append]
      refine ⟨?_, fun unread => ?_⟩
      · rw [← readsDelay_iff same]
        exact and_congr_right fun unread => (ih later (next unread).1).1
      · -- Both machines take the event alike and are the same but for timers behind it.
        obtain ⟨unread, unreads⟩ := unread
        obtain ⟨left, ran⟩ := (ih later (next unread).1).2 unreads
        exact ⟨left, by rw [(next unread).2, ran]⟩

/-- Ticks are no steps, so without them there are as many. -/
theorem countP_withoutTicks (events : List Event) :
    (withoutTicks events).countP Event.isStep = events.countP Event.isStep := by
  rw [withoutTicks, List.countP_filter]
  refine List.countP_congr fun event _ => ?_
  cases event <;> simp [Event.isStep, Event.isTiming]

/-! ### Realtime runs -/

variable {σ ε : Type} {script : Script σ ε} {pace : Pace}

/-- A loop whose sleeps use only the keypad is made of steps, uses of the keypad, and time. -/
theorem Loops.plays {schedule : Schedule} {world last : σ} {machine final : Machine}
    {events : List Event} {exit : Exit ε} (only : script.OnlyKeys)
    (loops : Loops script pace schedule world machine events exit last final) :
    ∀ event ∈ events, event.isPlay = true := by
  -- Every event is due, belongs to a sleep, or is a step of the loop itself.
  have due : ∀ schedule now ticks, ∀ event ∈ due pace schedule now ticks, event.isPlay = true := by
    intro schedule now ticks event listed
    simp [Event.isPlay, timing_due pace schedule now ticks event listed]
  have keys : ∀ {seconds world machine awake last events},
      script.sleep seconds world machine = (awake, last, events) →
        ∀ event ∈ events, event.isPlay = true := by
    intro seconds world machine awake last events slept event listed
    have key := only seconds world machine event (by rw [slept]; exact listed)
    simp [Event.isPlay, key]
  induction loops with
  | unfinished | stopped => exact fun _ listed => nomatch listed
  | timeless | ended => exact due _ _ _
  | interrupted _ _ slept => exact List.forall_mem_append.mpr ⟨due _ _ _, keys slept⟩
  | sleeping _ _ slept _ ih =>
    exact List.forall_mem_append.mpr ⟨due _ _ _, List.forall_mem_append.mpr ⟨keys slept, ih⟩⟩
  | refused =>
    exact List.forall_mem_append.mpr ⟨due _ _ _, List.forall_mem_cons.mpr ⟨rfl, by simp⟩⟩
  | stepping _ _ _ _ ih =>
    exact List.forall_mem_append.mpr ⟨due _ _ _, List.forall_mem_cons.mpr ⟨rfl, ih⟩⟩

/-- Entering a loop that ticks by itself makes no difference but to a request to stop. -/
theorem enterRealtime_timeless (machine : Machine) (single : pace.background = false) :
    (machine.enterRealtime pace).timeless = machine.timeless := by
  simp only [enterRealtime, single, Bool.false_eq_true, if_false]
  rfl

/-- Leaving a loop that ticks by itself makes no difference but to the tone. -/
theorem leaveRealtime_timeless (machine : Machine) (single : pace.background = false) :
    (machine.leaveRealtime pace).timeless = machine.timeless := by
  simp only [leaveRealtime, single, Bool.false_eq_true, if_false]
  rfl

/--
Timers do not interfere with execution.

Two machines that differ in timers are given the same steps and uses of the keypad, with any ticks
between them.
If no step reads the delay timer, then all steps end alike and leave the same but for timers.
A realtime run without a clock of its own for the timers, whose sleeps use the keypad only, leaves
what the steps that it issued and the uses of the keypad leave by themselves.
-/
theorem timers_do_not_interfere :
    (∀ (first second : Machine) (earlier later : List Event),
      first.timeless = second.timeless →
      (∀ event ∈ earlier, event.isPlay = true) → (∀ event ∈ later, event.isPlay = true) →
      withoutTicks earlier = withoutTicks later → first.Unread earlier →
        (first.course earlier).map timelessStep = (second.course later).map timelessStep ∧
          (first.after earlier).timeless = (second.after later).timeless) ∧
    ∀ {σ ε : Type} (script : Script σ ε) (pace : Pace) (fuel : Nat) (world last : σ)
      (machine left : Machine) (count : Nat), script.OnlyKeys → pace.background = false →
      machine.runRealtime script.host pace fuel world = (.returned count, last, left) →
      (machine.enterRealtime pace).Unread (machine.realtimeJournal script pace fuel world) →
        (∀ event ∈ withoutTicks (machine.realtimeJournal script pace fuel world),
          event.isStep = true ∨ event.isKey = true) ∧
          (withoutTicks (machine.realtimeJournal script pace fuel world)).countP Event.isStep =
            count ∧
          left.timeless =
            (machine.after
              (withoutTicks (machine.realtimeJournal script pace fuel world))).timeless := by
  refine ⟨fun first second earlier later same plays plays' events unread => ?_,
    fun script pace fuel world last machine left count only single returned unread => ?_⟩
  · -- Both sequences come to the same as the one without ticks.
    obtain ⟨reads, runs⟩ := withoutTicks_same plays same
    obtain ⟨reads', runs'⟩ := @withoutTicks_same second second later plays' rfl
    rw [← events] at reads' runs'
    obtain ⟨left, ran⟩ := runs unread
    obtain ⟨left', ran'⟩ := runs' (reads'.mpr (reads.mp unread))
    exact ⟨ran.trans ran'.symm, left.trans left'.symm⟩
  · -- The events of a realtime run are such a sequence, whose steps the loop has counted.
    obtain ⟨schedule, final, fresh, -, loops, left⟩ :=
      machine.runRealtime_loops script single fuel world
    rw [returned] at loops left
    obtain rfl : _ = final.leaveRealtime pace := left
    have issued := loops.issued only rfl
    rw [fresh, Nat.zero_add] at issued
    obtain ⟨-, runs⟩ := withoutTicks_same (loops.plays only) (machine.enterRealtime_timeless single)
    refine ⟨fun event listed => ?_, by rw [countP_withoutTicks, issued], ?_⟩
    · obtain ⟨happens, lasting⟩ := List.mem_filter.mp listed
      have play := loops.plays only event happens
      have lasts : event.isTiming = false := by simpa using lasting
      simpa [Event.isPlay, lasts] using play
    · rw [leaveRealtime_timeless final single, loops.after_events, (runs unread).1]

/-- A standard machine that sets the delay timer, waits for a key and loops in place. -/
def pausing : Machine :=
  Machine.standard.after [.loadImage [0x60, 0x05, 0xF0, 0x15, 0xF1, 0x0A, 0x12, 0x06]]

/-- A host whose clock only sleeping moves, and who taps a key in every sleep. -/
def tapper : Script Float Empty where
  clock time := (time, time)
  sleep seconds time _ := (.ok (), time + seconds, [.press 7, .release 7])

/-- Ticks do not interfere with the delayed machine, in a sequence and in a realtime run. -/
theorem timers_do_not_interfere_pausing :
    (pausing.course [.step, .step, .step, .press 7, .step]).map timelessStep =
        (pausing.tick.course [.tick, .step, .step, .tick, .step, .press 7, .tick, .step]).map
          timelessStep ∧
      (∀ event ∈ withoutTicks (pausing.realtimeJournal tapper {} 40 0.0),
        event.isStep = true ∨ event.isKey = true) ∧
      (withoutTicks (pausing.realtimeJournal tapper {} 40 0.0)).countP Event.isStep = 5 ∧
      (pausing.runRealtime tapper.host {} 40 0.0).2.2.timeless =
        (pausing.after (withoutTicks (pausing.realtimeJournal tapper {} 40 0.0))).timeless := by
  have sequences := timers_do_not_interfere.1 pausing pausing.tick
    [.step, .step, .step, .press 7, .step]
    [.tick, .step, .step, .tick, .step, .press 7, .tick, .step]
    (@apply_timing .tick rfl pausing).symm (by decide) (by decide) rfl (by decide +kernel)
  refine ⟨sequences.1, ?_⟩
  -- The run ends by itself when the program loops in place and the delay is over.
  have count : (match (pausing.runRealtime tapper.host {} 40 0.0).1 with
      | .returned count => some count
      | _ => none) = some 5 := by decide +kernel
  rcases returned : pausing.runRealtime tapper.host {} 40 0.0 with ⟨exit, last, left⟩
  rw [returned] at count
  obtain rfl : exit = .returned 5 := by
    cases exit with
    | returned issued => exact congrArg Exit.returned (Option.some.inj count)
    | _ => cases count
  have keys : tapper.OnlyKeys := fun _ _ _ => by simp [tapper, Event.isKey]
  exact timers_do_not_interfere.2 tapper {} 40 0.0 last pausing left 5 keys rfl returned
    (by decide +kernel)

end Machine

end Chip8
