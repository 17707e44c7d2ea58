import Chip8.Proofs.Execution.Beside
import Chip8.Proofs.Machine.CallStack
import Chip8.Proofs.Machine.Moments
import Chip8.Proofs.Machine.Sounding

/-!
The timers of a machine beside a book of what happened to them.

The book knows the value that was last written to each timer and the ticks since then.
It is kept from the outside: a writing step, a tick and a load each make a note, and nothing else
does.
At every moment of every history the timers show what the book says they should.
-/

namespace Chip8

/-- What can happen to the timers of a machine. -/
inductive TimerNote where
  /-- A program is loaded, or loaded again. -/
  | restarted
  /-- An instruction writes the delay timer. -/
  | delay (value : Int)
  /-- An instruction writes the sound timer. -/
  | sound (value : Int)
  /-- Both timers count down. -/
  | ticked

/-- A value that was written to a timer, and the number of ticks since then. -/
structure Countdown where
  value : Int := 0
  ticks : Nat := 0

/-- What is left of a value after the ticks since it was written. -/
def Countdown.left (countdown : Countdown) : Int :=
  max 0 (countdown.value - countdown.ticks)

/-- The countdowns of both timers, and all ticks since the last load. -/
structure TimerBook where
  delay : Countdown := {}
  sound : Countdown := {}
  ticks : Nat := 0

/-- A countdown goes on by a tick. -/
def Countdown.ticked (countdown : Countdown) : Countdown :=
  { countdown with ticks := countdown.ticks + 1 }

/-- The book with one more note. -/
def TimerBook.noted (book : TimerBook) : TimerNote → TimerBook
  | .restarted => {}
  | .delay value => { book with delay := { value } }
  | .sound value => { book with sound := { value } }
  | .ticked =>
    { delay := book.delay.ticked, sound := book.sound.ticked, ticks := book.ticks + 1 }

/-- The book with more notes, in their order. -/
def TimerBook.notedAll (book : TimerBook) (notes : List TimerNote) : TimerBook :=
  notes.foldl TimerBook.noted book

/-! ### Keeping the book -/

/-- What an instruction does to the timers of a register file. -/
def Instruction.timerNote? (instruction : Instruction) (registers : Registers) :
    Option TimerNote :=
  match instruction with
  | .setDelay x => some (.delay (registers.reg x))
  | .setSound x => some (.sound (registers.reg x))
  | _ => none

namespace Machine

/-- The instruction that the next step executes, if the machine runs and there is one. -/
def next? (machine : Machine) : Option Instruction :=
  if machine.registers.mode = .running then
    (machine.board.memory.readWord machine.registers.pc).toOption.bind Word.decode
  else none

/-- What the next step does to the timers. -/
def stepNote? (machine : Machine) : Option TimerNote :=
  machine.next?.bind (·.timerNote? machine.registers)

end Machine

/-- A load makes a note, unless it is refused. -/
def TimerNote.ofLoad? {ε : Type} : Except ε Unit → Option TimerNote
  | .ok () => some .restarted
  | .error _ => none

/-- What a single event does to the timers of a machine. -/
def Event.timerNote? (event : Event) (machine : Machine) : Option TimerNote :=
  match event with
  | .loadImage image => TimerNote.ofLoad? (machine.loadImage image).1
  | .loadSource source => TimerNote.ofLoad? (machine.loadSource source).1
  | .reset => TimerNote.ofLoad? machine.reset.1
  | .step => machine.stepNote?
  | .tick => some .ticked
  | _ => none

namespace Machine

/-- What a sequence of single events does to the timers. -/
def timerNotes (machine : Machine) : List Event → List TimerNote
  | [] => []
  | event :: rest => (event.timerNote? machine).toList ++ (event.apply machine).timerNotes rest

end Machine

/-- What a moment does to the timers: an event does what the single events in it do. -/
def Moment.timerNotes (moment : Moment) (machine : Machine) : List TimerNote :=
  match moment with
  | .happens event => machine.timerNotes (event.singles machine)
  | .begins _ | .ends _ => []

namespace Machine

/-- The book of a machine behind some moments, given the book before them. -/
def bookThrough (machine : Machine) (book : TimerBook) : List Moment → TimerBook
  | [] => book
  | moment :: rest =>
    (moment.apply machine).bookThrough (book.notedAll (moment.timerNotes machine)) rest

/-- The timers show what a book says. -/
structure InTime (machine : Machine) (book : TimerBook) : Prop where
  /-- The delay timer has counted down since it was written. -/
  delay : machine.registers.delayTimer = book.delay.left
  /-- So has the sound timer. -/
  sound : machine.registers.soundTimer = book.sound.left
  /-- The driver has counted the ticks since the last load. -/
  ticks : machine.timers.ticks = book.ticks

/-- What elapsed seconds do to a machine. -/
structure AdvanceLaw (machine : Machine) (seconds : Float) : Prop where
  /-- Whatever count is answered, so many ticks have passed, and none if it is negative. -/
  counted : ∀ count, (machine.advanceTimers seconds).1 = .ok count →
    ∃ (ticks : Nat) (remainder : Float), (ticks : Int) = max 0 count ∧
      (machine.advanceTimers seconds).2 =
        (machine.after (List.replicate ticks .tick)).withRemainder remainder
  /-- A time that is no number of ticks does not tick. -/
  refused : ∀ fault, (machine.advanceTimers seconds).1 = .error fault →
    ∃ remainder, (machine.advanceTimers seconds).2 = machine.withRemainder remainder
  /-- Nothing but the two timers and their driver changes, in whatever mode the machine is. -/
  rest : ∃ delayTimer soundTimer timers, (machine.advanceTimers seconds).2 = { machine with
    registers := { machine.registers with delayTimer, soundTimer }
    timers }

/-- Two machines show the same time. -/
structure SameTime (first second : Machine) : Prop where
  delay : second.registers.delayTimer = first.registers.delayTimer
  sound : second.registers.soundTimer = first.registers.soundTimer
  ticks : second.timers.ticks = first.timers.ticks

end Machine

/-! ### Instructions -/

/-- A value that has just been written is left whole. -/
theorem Countdown.left_fresh {value : Int} (range : 0 ≤ value) :
    ({ value } : Countdown).left = value := by
  -- No tick has come off it yet.
  simp only [left]
  omega

/-- A tick takes one off what is left, down to zero. -/
theorem Countdown.left_ticked (countdown : Countdown) :
    countdown.ticked.left = max 0 (countdown.left - 1) := by
  simp only [left, ticked]
  omega

namespace Instruction

variable {entry : Int} {registers result : Registers} {board left : Board} {book : TimerBook}
  {instruction : Instruction}

/-- A byte that is stored in a timer is stored whole. -/
theorem left_of_byte (bounded : registers.Bounded entry) (x : Nibble) :
    registers.reg x % 256 = ({ value := registers.reg x } : Countdown).left := by
  obtain ⟨low, high⟩ := bounded.reg_range x
  rw [Countdown.left_fresh low]
  omega

/-- Storing a register in the delay timer moves on to the next instruction. -/
theorem perform_setDelay (full : registers.Full) (x : Nibble) (board : Board) :
    (setDelay x).perform registers board =
      (.ok (registers.setDelay (registers.reg x)).advance, board) := by
  simp only [perform, operation, fields, Operation.perform, full.value_eq, ok_bind, pure_eq_ok]

/-- Storing a register in the sound timer moves on to the next instruction. -/
theorem perform_setSound (full : registers.Full) (x : Nibble) (board : Board) :
    (setSound x).perform registers board =
      (.ok (registers.setSound (registers.reg x)).advance, board) := by
  simp only [perform, operation, fields, Operation.perform, full.value_eq, ok_bind, pure_eq_ok]

/-- An instruction that writes a timer is never refused, and is no jump. -/
theorem performed_of_timerNote {note : TimerNote} (full : registers.Full)
    (noted : instruction.timerNote? registers = some note) (board : Board) :
    instruction.operation ≠ .jump ∧
      ∃ result, instruction.perform registers board = (.ok result, board) := by
  -- Two instructions make notes.
  cases instruction with
  | setDelay x => exact ⟨by rintro ⟨⟩, _, perform_setDelay full x board⟩
  | setSound x => exact ⟨by rintro ⟨⟩, _, perform_setSound full x board⟩
  | _ => cases noted

/-- An executed instruction leaves the timers as its note says. -/
theorem perform_timers (bounded : registers.Bounded entry)
    (delay : registers.delayTimer = book.delay.left)
    (sound : registers.soundTimer = book.sound.left)
    (done : instruction.perform registers board = (.ok result, left)) :
    result.delayTimer =
        (book.notedAll (instruction.timerNote? registers).toList).delay.left ∧
      result.soundTimer =
        (book.notedAll (instruction.timerNote? registers).toList).sound.left := by
  -- The two writers come first, then what reads a timer and what waits.
  cases instruction with
  | setDelay x =>
    rw [perform_setDelay bounded.toFull] at done
    obtain rfl := Except.ok.inj (Prod.mk.inj done).1
    exact ⟨left_of_byte bounded x, sound⟩
  | setSound x =>
    rw [perform_setSound bounded.toFull] at done
    obtain rfl := Except.ok.inj (Prod.mk.inj done).1
    exact ⟨delay, left_of_byte bounded x⟩
  | readDelay x =>
    rw [Registers.load_keeps (Prod.mk.inj done).1]
    exact ⟨delay, sound⟩
  | waitKey x =>
    simp only [perform, operation, fields, Operation.perform, Registers.awaitKey_eq] at done
    obtain rfl := Except.ok.inj (Prod.mk.inj done).1
    exact ⟨delay, sound⟩
  | _ =>
    -- All others calculate, and what calculates keeps the timers.
    rw [Operation.perform_keeps rfl done]
    exact ⟨delay, sound⟩

/-- No instruction notes a tick. -/
theorem notedAll_ticks (instruction : Instruction) (registers : Registers) (book : TimerBook) :
    (book.notedAll (instruction.timerNote? registers).toList).ticks = book.ticks := by
  cases instruction <;> rfl

end Instruction

/-- Notes are added behind the earlier ones. -/
theorem TimerBook.notedAll_append (book : TimerBook) (earlier later : List TimerNote) :
    book.notedAll (earlier ++ later) = (book.notedAll earlier).notedAll later :=
  List.foldl_append

namespace Machine

variable {config : Config} {machine left : Machine} {book : TimerBook} {instruction : Instruction}

/-! ### Steps -/

/-- The next instruction is the one that the machine is about. -/
theorem next?_eq_some : machine.next? = some instruction ↔ machine.About instruction := by
  -- Both look at the mode and at the word at the counter.
  rw [about_iff, next?]
  split
  · rename_i running
    exact ⟨fun decoded => ⟨running, decoded⟩, And.right⟩
  · rename_i resting
    constructor
    · intro decoded
      cases decoded
    · intro about
      exact absurd about.1 resting

/-- A machine that does not run writes no timer. -/
theorem stepNote?_of_resting (resting : machine.registers.mode ≠ .running) :
    machine.stepNote? = none := by
  -- It has no next instruction.
  rw [stepNote?, next?, if_neg resting]
  rfl

/-- A step that is refused writes no timer. -/
theorem stepNote?_of_refused {fault : Fault} (full : machine.registers.Full)
    (refused : machine.step = (.refused fault, left)) : machine.stepNote? = none := by
  -- An instruction that writes one would have been completed.
  refine Option.eq_none_iff_forall_ne_some.mpr fun note noted => ?_
  obtain ⟨instruction, next, writes⟩ := Option.bind_eq_some_iff.mp noted
  obtain ⟨other, moved, performed⟩ :=
    Instruction.performed_of_timerNote full writes machine.board
  obtain ⟨entry, after, completed, -⟩ := step_of_about (next?_eq_some.mp next) other performed
  rw [refused] at completed
  cases completed

/-- A machine that shows the same time is in time with the same book. -/
theorem InTime.same (timed : machine.InTime book) (same : SameTime machine left) :
    left.InTime book :=
  ⟨same.delay.trans timed.delay, same.sound.trans timed.sound, same.ticks.trans timed.ticks⟩

/-- Settling in an idle loop leaves the timers alone. -/
theorem settle_timers (machine : Machine) (word : Word) (result : Registers) :
    (machine.settle word result).delayTimer = result.delayTimer ∧
      (machine.settle word result).soundTimer = result.soundTimer := by
  unfold settle
  split <;> exact ⟨rfl, rfl⟩

/-- A step keeps a machine in time with its book. -/
theorem InTime.step (timed : machine.InTime book) (sound : machine.Sound config) :
    machine.step.2.InTime (book.notedAll machine.stepNote?.toList) := by
  rcases stepped : machine.step with ⟨result, left⟩
  cases sound.steps stepped with
  | halted mode =>
    rw [stepNote?_of_refused sound.registers.toFull stepped]
    exact timed
  | fruitless mode =>
    rw [stepNote?_of_resting (by rw [mode]; decide)]
    exact timed
  | delivered mode =>
    -- A key is stored in a general register.
    rw [stepNote?_of_resting (by rw [mode]; decide)]
    exact timed.same ⟨rfl, rfl, rfl⟩
  | failed =>
    -- A fault halts the machine, and its timers go on from where they were.
    rw [stepNote?_of_refused sound.registers.toFull stepped]
    exact timed.same ⟨rfl, rfl, rfl⟩
  | @executed mode word board result fetched done =>
    obtain ⟨instruction, performed, decoded, moved, rfl⟩ := execute_done done
    have about : machine.About instruction := ⟨mode, word, fetched, decoded⟩
    have note : machine.stepNote? = instruction.timerNote? machine.registers := by
      rw [stepNote?, next?_eq_some.mpr about, Option.bind_some]
    obtain ⟨delay, tone⟩ := Instruction.perform_timers sound.registers timed.delay timed.sound moved
    obtain ⟨sameDelay, sameSound⟩ := settle_timers machine word performed.countCycle
    rw [note]
    refine ⟨sameDelay.trans delay, sameSound.trans tone, ?_⟩
    rw [Instruction.notedAll_ticks]
    exact timed.ticks

/-! ### Single events -/

/-- A tick keeps a machine in time with its book. -/
theorem InTime.tick (timed : machine.InTime book) :
    machine.tick.InTime (book.noted .ticked) where
  delay := by
    show max 0 (machine.registers.delayTimer - 1) = book.delay.ticked.left
    rw [Countdown.left_ticked, timed.delay]
  sound := by
    show max 0 (machine.registers.soundTimer - 1) = book.sound.ticked.left
    rw [Countdown.left_ticked, timed.sound]
  ticks := congrArg (· + 1) timed.ticks

/-- A machine that was loaded is in time with an empty book. -/
theorem loadImage_inTime {image : List Byte} (done : machine.loadImage image = (.ok (), left)) :
    left.InTime {} := by
  -- Both timers are at zero, and so is the driver.
  obtain ⟨memory, -, rfl⟩ := loadImage_eq_ok.mp done
  exact ⟨rfl, rfl, rfl⟩

/-- A load keeps a machine in time with its book, whether it is refused or not. -/
theorem InTime.load {ε : Type} {attempt : Except ε Unit × Machine} (timed : machine.InTime book)
    (atomic : Atomic machine attempt)
    (loads : ∀ left, attempt = (.ok (), left) → ∃ image, machine.loadImage image = (.ok (), left)) :
    attempt.2.InTime (book.notedAll (TimerNote.ofLoad? attempt.1).toList) := by
  -- A refused load is no note in the book, and leaves the timers as they are.
  rcases attempt with ⟨reason | ⟨⟩, left⟩
  · obtain rfl := atomic reason left rfl
    exact timed
  · obtain ⟨image, done⟩ := loads left rfl
    exact loadImage_inTime done

/-- A single event keeps a machine in time with its book. -/
theorem InTime.single (timed : machine.InTime book) (sound : machine.Sound config) {event : Event}
    (single : event.isSingle = true) :
    (event.apply machine).InTime (book.notedAll (event.timerNote? machine).toList) := by
  -- Only loads, steps and ticks are noted.
  cases event with
  | loadImage image => exact timed.load (machine.loadImage_atomic image) fun _ done => ⟨image, done⟩
  | loadSource source =>
    exact timed.load (machine.loadSource_atomic source) fun _ => loadSource_done
  | reset => exact timed.load (machine.loadImage_atomic machine.program) fun _ done => ⟨_, done⟩
  | step => exact timed.step sound
  | tick => exact timed.tick
  | press | release | releaseAll | write | writeBlock | fill | stop =>
    exact timed.same ⟨rfl, rfl, rfl⟩
  | run | advance => cases single

/-- Single events keep a machine in time with its book. -/
theorem InTime.singles {events : List Event} (timed : machine.InTime book)
    (sound : machine.Sound config) (single : ∀ event ∈ events, event.isSingle = true) :
    (machine.after events).InTime (book.notedAll (machine.timerNotes events)) := by
  -- The notes of the first event are in the book before those of the others are added.
  induction events generalizing machine book with
  | nil => exact timed
  | cons event rest ih =>
    obtain ⟨first, later⟩ := List.forall_mem_cons.mp single
    rw [timerNotes, TimerBook.notedAll_append]
    exact ih (timed.single sound first) (sound.apply event) later

/-! ### Elapsed seconds -/

/-- Elapsed seconds obey the law of elapsed seconds. -/
theorem advance_law (machine : Machine) (seconds : Float) : machine.AdvanceLaw seconds where
  -- Whether the seconds are a number of ticks is asked before any tick.
  counted count answered := by
    obtain ⟨remainder, left⟩ := machine.advance_ticks seconds
    simp only [ticksIn, answered] at left
    exact ⟨count.toNat, remainder, Int.toNat_eq_max count |>.trans (Int.max_comm count 0), left⟩
  refused fault refused := by
    obtain ⟨remainder, left⟩ := machine.advance_ticks seconds
    simp only [ticksIn, refused] at left
    exact ⟨remainder, left⟩
  rest := by
    -- Of the registers ticks change the two timers only.
    refine ⟨(machine.timers.advance machine.registers seconds).2.1.delayTimer,
      (machine.timers.advance machine.registers seconds).2.1.soundTimer,
      (machine.timers.advance machine.registers seconds).2.2, ?_⟩
    rw [← Timers.advance_registers]
    rfl

/-! ### Moments -/

/-- An event shows the time that its single events show. -/
theorem singles_sameTime (sound : machine.Sound config) (event : Event) :
    SameTime (machine.after (event.singles machine)) (event.apply machine) := by
  obtain ⟨remainder, left⟩ := after_singles sound event
  rw [left]
  exact ⟨rfl, rfl, rfl⟩

/-- A moment keeps a machine in time with its book. -/
theorem InTime.moment (timed : machine.InTime book) (sound : machine.Sound config)
    (moment : Moment) :
    (moment.apply machine).InTime (book.notedAll (moment.timerNotes machine)) := by
  cases moment with
  | happens event =>
    have singles : ∀ single ∈ event.singles machine, single.isSingle = true := by
      intro single listed
      exact single_of_mem_singles listed
    exact (timed.singles sound singles).same (singles_sameTime sound event)
  | begins pace =>
    -- A realtime run begins and ends without a tick.
    show (machine.enterRealtime pace).InTime book
    unfold enterRealtime
    split <;> exact timed.same ⟨rfl, rfl, rfl⟩
  | ends pace =>
    show (machine.leaveRealtime pace).InTime book
    unfold leaveRealtime
    refine timed.same ⟨rfl, rfl, ?_⟩
    dsimp only
    split <;> rfl

/-- A list of moments keeps a machine in time with its book. -/
theorem InTime.through (timed : machine.InTime book) (sound : machine.Sound config)
    (moments : List Moment) :
    (machine.through moments).InTime (machine.bookThrough book moments) := by
  -- The induction is on the moments, each of which is noted before the next one.
  induction moments generalizing machine book with
  | nil => exact timed
  | cons moment rest ih => exact ih (timed.moment sound moment) (sound.moment moment)

/-- A machine in time that reads its delay timer reads what its book says is left. -/
theorem InTime.read (timed : machine.InTime book) (sound : machine.Sound config) {x : Nibble}
    (about : machine.About (.readDelay x)) :
    ∃ entry after, machine.step = (.completed entry, after) ∧
      after.registers = { machine.registers with
        v := machine.registers.v.set x.val book.delay.left }.advance.countCycle := by
  obtain ⟨low, high⟩ := sound.registers.delay
  -- The timer holds a byte, which the register takes whole.
  have whole : machine.registers.delayTimer % 256 = book.delay.left := by
    rw [← timed.delay]
    omega
  have performed : (Instruction.readDelay x).perform machine.registers machine.board =
      (.ok { machine.registers with
        v := machine.registers.v.set x.val book.delay.left }.advance, machine.board) := by
    simp only [Instruction.perform, Instruction.operation, Instruction.fields, Operation.perform,
      sound.registers.toFull.load_eq, whole]
  exact step_of_about about (by rintro ⟨⟩) performed

/--
Timers count down exactly, whatever else goes on.

Moments lead to every reachable machine.
Behind any moments from power-on, each timer shows the value last written to it less the ticks since
then, down to zero, or zero if nothing was written since the last load; the driver has counted the
ticks since the last load; and reading the delay timer stores just what it shows.
Elapsed seconds are turned into as many ticks as are answered, if that is no negative number, and
touch nothing but the two timers and their driver, in whatever mode the machine is.
-/
theorem timers_count_exactly (config : Config) :
    (∀ machine : Machine, machine.Reachable config →
      ∃ random moments, machine = (withRandom config random).through moments) ∧
    (∀ (random : ByteSource) (moments : List Moment),
      let machine := (withRandom config random).through moments
      let book := (withRandom config random).bookThrough {} moments
      machine.InTime book ∧
        ∀ x : Nibble, machine.About (.readDelay x) →
          ∃ entry after, machine.step = (.completed entry, after) ∧
            after.registers = { machine.registers with
              v := machine.registers.v.set x.val book.delay.left }.advance.countCycle) ∧
    ∀ (machine : Machine) (seconds : Float), machine.AdvanceLaw seconds := by
  refine ⟨?_, ?_, advance_law⟩
  · intro machine reachable
    exact reachable.moments
  · intro random moments machine book
    have begun := Sound.withRandom config random
    -- At power-on both timers are at zero, and so is the book.
    have fresh : (withRandom config random).InTime {} := ⟨rfl, rfl, rfl⟩
    have timed : machine.InTime book := fresh.through begun moments
    refine ⟨timed, ?_⟩
    intro x about
    exact timed.read (begun.through moments) about

/-- A delay of twenty ticks, of which one passes alone and fifteen pass in a quarter of a second. -/
def brewing : List Event :=
  [.loadImage [0x60, 0x14, 0xF0, 0x15, 0xF1, 0x07], .step, .step, .tick, .advance 0.25]

/-- Four ticks are left, and that is what the next step reads. -/
theorem timers_count_exactly_brewing :
    (standard.after brewing).Reachable .standard ∧
    (∃ random moments, standard.after brewing =
      (withRandom .standard random).through moments) ∧
    (standard.after brewing).About (.readDelay 1) ∧
    (standard.after brewing).registers.delayTimer = 4 ∧
    ∃ entry after, (standard.after brewing).step = (.completed entry, after) ∧
      after.registers.reg 1 = 4 := by
  obtain ⟨led, counted, -⟩ := timers_count_exactly .standard
  have reachable := Reachable.standard.after brewing
  have about : (standard.after brewing).About (.readDelay 1) := by decide +kernel
  -- Events are moments, so the machine is one of those that the law speaks of.
  have brewed : (withRandom .standard (.seeded 0)).through (brewing.map .happens) =
      standard.after brewing := through_events _ brewing
  obtain ⟨timed, read⟩ := counted (.seeded 0) (brewing.map .happens)
  rw [brewed] at timed read
  have left : (standard.bookThrough {} (brewing.map .happens)).delay.left = 4 := by
    decide +kernel
  obtain ⟨entry, after, stepped, result⟩ := read 1 about
  refine ⟨reachable, led _ reachable, about, timed.delay.trans left, entry, after, stepped, ?_⟩
  rw [result]
  decide +kernel

end Machine

end Chip8
