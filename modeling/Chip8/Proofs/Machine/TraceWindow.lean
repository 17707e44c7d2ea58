import Chip8.Proofs.Machine.Chronicle
import Chip8.Proofs.Machine.Journal
import Chip8.Proofs.Machine.Verdict

/-!
The trace as a window on the chronicle of a machine.

Its entries follow each other without gaps: each step finds what the one before it has left, but
for timers that ran down in between.
-/

namespace Chip8

/-- A register file has become another one by nothing but the running down of its timers. -/
structure Registers.RunsDownTo (earlier later : Registers) : Prop where
  /-- Everything but the timers is as it was. -/
  rest : later = { earlier with delayTimer := later.delayTimer, soundTimer := later.soundTimer }
  delay : later.delayTimer ≤ earlier.delayTimer
  sound : later.soundTimer ≤ earlier.soundTimer

/-- An entry says what its step has found and done. -/
structure Recording.Genuine (recording : Recording) : Prop where
  /-- The entry is the one that a step of this machine records. -/
  recorded : recording.found.recording? = some recording.entry
  /-- Count of cycles, counter and registers before the step are those that it found. -/
  cycle : recording.entry.cycle = recording.found.registers.cycleCount
  pc : recording.entry.pc = recording.found.registers.pc
  before : recording.entry.before = recording.found.registers
  /-- The word is the one that was at the counter, if one could be fetched there. -/
  word : recording.entry.word? =
    (recording.found.board.memory.readWord recording.entry.pc).toOption
  /-- A fault has changed nothing but the mode. -/
  fault : recording.entry.error? ≠ none →
    recording.entry.after = { recording.entry.before with mode := .halted }

/-- The trace is a window on a chronicle without gaps. -/
structure Chronicle.Faithful (limit : Nat) (chronicle : Chronicle) : Prop where
  /-- The trace shows the last entries, as many as there are up to its limit. -/
  window : chronicle.machine.trace =
    (chronicle.recordings.map Recording.entry).drop (chronicle.recordings.length - limit)
  /-- Every entry says what its step has found and done. -/
  genuine : ∀ recording ∈ chronicle.recordings, recording.Genuine
  /-- The entries count the cycles from zero. -/
  cycles : ∀ (place : Nat) recording, chronicle.recordings[place]? = some recording →
    recording.entry.cycle = place
  /-- Each step has found what the one before it had left, but for timers that ran down. -/
  chained : ∀ (place : Nat) earlier later, chronicle.recordings[place]? = some earlier →
    chronicle.recordings[place + 1]? = some later →
      earlier.entry.after.RunsDownTo later.entry.before
  /-- Only the newest entry can be one of a fault. -/
  faultless : ∀ recording ∈ chronicle.recordings.dropLast, recording.entry.error? = none
  /-- The machine is what the newest entry has left, but for timers that ran down. -/
  newest : ∀ recording ∈ chronicle.recordings.getLast?,
    recording.entry.after.RunsDownTo chronicle.machine.registers
  /-- The fault that is noted is the one of the newest entry. -/
  noted : chronicle.machine.lastError.map Fault.message =
    chronicle.recordings.getLast?.bind fun recording => recording.entry.error?
  /-- A machine that has not halted has counted all entries, none of which is one of a fault. -/
  awake : chronicle.machine.registers.mode ≠ .halted →
    chronicle.machine.registers.cycleCount = chronicle.recordings.length ∧
      ∀ recording ∈ chronicle.recordings, recording.entry.error? = none

/-! ### Timers that run down -/

namespace Registers

/-- Timers that stand still have run down by nothing. -/
@[simp]
theorem RunsDownTo.refl (registers : Registers) : registers.RunsDownTo registers :=
  ⟨rfl, Int.le_refl _, Int.le_refl _⟩

variable {first second third : Registers}

/-- Timers may run down in two pieces. -/
theorem RunsDownTo.trans (earlier : first.RunsDownTo second) (later : second.RunsDownTo third) :
    first.RunsDownTo third where
  rest := by rw [later.rest, earlier.rest]
  delay := Int.le_trans later.delay earlier.delay
  sound := Int.le_trans later.sound earlier.sound

/-- The mode is no timer. -/
theorem RunsDownTo.mode (runs : first.RunsDownTo second) : second.mode = first.mode := by
  rw [runs.rest]

/-- The count of cycles is no timer. -/
theorem RunsDownTo.cycleCount (runs : first.RunsDownTo second) :
    second.cycleCount = first.cycleCount := by
  rw [runs.rest]

end Registers

/-- Ticks run the timers down. -/
theorem Timers.tickMany_runsDown {τ : Type} [ToneSink τ] (timers : Timers τ)
    {registers : Registers} (delay : 0 ≤ registers.delayTimer) (sound : 0 ≤ registers.soundTimer)
    (count : Nat) : registers.RunsDownTo (timers.tickMany registers count).1 := by
  -- A tick takes one from a timer above zero, and leaves no timer below.
  induction count generalizing timers registers with
  | zero => exact .refl registers
  | succ count ih =>
    have ticked : registers.RunsDownTo registers.tickTimers :=
      ⟨rfl, by simp only [Registers.tickTimers]; omega, by simp only [Registers.tickTimers]; omega⟩
    have low : ∀ value : Int, 0 ≤ max 0 value := fun value => Int.le_max_left 0 value
    exact ticked.trans (ih (timers.tick registers).2 (low _) (low _))

namespace Machine

variable {config : Config} {machine left : Machine} {event : Event}

/-- Elapsed seconds run the timers down. -/
theorem Sound.advance_runsDown (sound : machine.Sound config) (seconds : Float) :
    machine.registers.RunsDownTo (machine.advanceTimers seconds).2.registers := by
  -- The elapsed seconds are some number of ticks.
  simp only [advanceTimers, Timers.advance]
  split
  · exact .refl _
  · exact Timers.tickMany_runsDown _ sound.registers.delay.1 sound.registers.sound.1 _

/-- Nothing is recorded between two steps, and nothing changes in the registers but for timers. -/
theorem Sound.apply_between (sound : machine.Sound config) (quiet : event.restarts = false)
    (rests : event.isStep = false) (idles : ∀ limit, event ≠ .run limit) :
    (event.apply machine).recent = machine.recent ∧
      (event.apply machine).lastError = machine.lastError ∧
      machine.registers.RunsDownTo (event.apply machine).registers := by
  -- The events that load, reset or step are ruled out.
  cases event with
  | loadImage | loadSource | reset => cases quiet
  | step => cases rests
  | run limit => exact absurd rfl (idles limit)
  | tick =>
    have ticked := machine.timers.tickMany_runsDown sound.registers.delay.1
      sound.registers.sound.1 1
    exact ⟨rfl, rfl, ticked⟩
  | advance seconds => exact ⟨rfl, rfl, sound.advance_runsDown seconds⟩
  | press | release | releaseAll | write | writeBlock | fill | stop => exact ⟨rfl, rfl, .refl _⟩

/-- A machine that was loaded has an empty trace, no noted fault, and has counted no cycle. -/
theorem loadImage_blank {image : List Byte} (done : machine.loadImage image = (.ok (), left)) :
    left.recent = [] ∧ left.lastError = none ∧ left.registers.cycleCount = 0 := by
  -- A load that is not refused starts over.
  obtain ⟨memory, -, rfl⟩ := loadImage_eq_ok.mp done
  exact ⟨rfl, rfl, rfl⟩

/-! ### What a step records -/

/-- A step adds an entry to the trace, which says what registers and which fault it has left. -/
def Records (machine : Machine) (entry : TraceEntry) : Prop :=
  machine.step.2.recent = (entry :: machine.recent).take machine.config.traceLimit ∧
    machine.step.2.registers = entry.after ∧
    machine.step.2.lastError = entry.fault.or machine.lastError

/-- A poll that finds a press records its key, and the word at the counter. -/
theorem records_polled (machine : Machine) (awaiting : machine.registers.mode = .awaitingKey)
    (full : machine.registers.Full) {x : Nibble}
    (register : machine.registers.keyRegister = some (x.val : Int)) {word : Word}
    (fetched : machine.board.memory.readWord machine.registers.pc = .ok word) {key : Key}
    {rest : List Key} (queued : machine.board.keypad.queue = key :: rest) :
    machine.Records (machine.filling word x key) := by
  -- The first press in the queue goes into the register of the wait.
  unfold Records
  rw [step_of_awaiting awaiting]
  simp only [pollKey, Keypad.takePress, queued, register, Option.getD_some,
    deliver_eq full x key, fetched]
  exact ⟨rfl, rfl, rfl⟩

/-- A word that cannot be fetched is recorded as a fault. -/
theorem records_unfetched (machine : Machine) (running : machine.registers.mode = .running)
    {fault : Fault}
    (unfetched : machine.board.memory.readWord machine.registers.pc = .error fault) :
    machine.Records (machine.entry .unfetched machine.registers.halt (some fault)) := by
  -- The word at the counter lies outside memory, which is a fault of the guest.
  obtain ⟨location, rfl⟩ := Memory.readWord_error unfetched
  unfold Records
  rw [step_of_running running, executeNext_of_unfetched unfetched,
    fail_guest machine .unfetched (.inl ⟨_, _, rfl⟩)]
  exact ⟨rfl, rfl, rfl⟩

/-- A word that is refused is recorded with its fault. -/
theorem records_refused {entry : Int} (machine : Machine)
    (running : machine.registers.mode = .running) (bounded : machine.registers.Bounded entry)
    {word : Word} (fetched : machine.board.memory.readWord machine.registers.pc = .ok word)
    {fault : Fault} {board : Board}
    (refused : execute word machine.registers machine.board = (.error fault, board)) :
    machine.Records (machine.entry (.executed word) machine.registers.halt (some fault)) := by
  -- A word is refused for an access outside of memory or for being unknown.
  have guest : fault.IsGuest := by
    rcases execute_refused_fault bounded refused with outside | rfl
    · exact .inl outside
    · exact .inr ⟨_, _, rfl⟩
  unfold Records
  rw [step_of_running running, executeNext_of_fetched fetched, refused, land,
    fail_guest _ _ guest]
  exact ⟨rfl, rfl, rfl⟩

/-- A word that is executed is recorded with the registers that it leaves. -/
theorem records_executed (machine : Machine) (running : machine.registers.mode = .running)
    {word : Word} (fetched : machine.board.memory.readWord machine.registers.pc = .ok word)
    {result : Registers} {board : Board}
    (done : execute word machine.registers machine.board = (.ok result, board)) :
    machine.Records
      (machine.entry (.executed word) (machine.settle word result) none) := by
  unfold Records
  rw [step_of_running running, executeNext_of_fetched fetched, done]
  exact ⟨rfl, rfl, rfl⟩

/-- The only entry of a trace with room for one is the one that was recorded. -/
theorem recording_of_records {entry : TraceEntry} (records : machine.unwritten.Records entry) :
    machine.recording? = some entry := by
  -- An empty trace with room for one entry shows what is added to it.
  rw [recording?, records.1]
  rfl

/-- What a step adds to the trace. -/
inductive Adds (machine : Machine) : Prop where
  /-- A halted machine, and one that finds no key, record nothing and stay as they are. -/
  | nothing (silent : machine.recording? = none) (kept : machine.step.2 = machine)
  /-- Any other step records one entry, which counts a cycle or is one of a fault. -/
  | entry (entry : TraceEntry) (awake : machine.registers.mode ≠ .halted)
    (genuine : Recording.Genuine ⟨machine, entry⟩) (records : machine.Records entry)
    (counts : entry.error? = none →
      entry.after.cycleCount = machine.registers.cycleCount + 1)

/-- A step of a sound machine records nothing, or an entry that says what it has found and done. -/
theorem Sound.adds (sound : machine.Sound config) : machine.Adds := by
  have full := sound.registers.toFull
  cases mode : machine.registers.mode with
  | halted =>
    have step : ∀ found : Machine, found.registers.mode = .halted → found.step.2 = found := by
      intro found halted
      simp only [Machine.step, halted]
    exact .nothing (by rw [recording?, step machine.unwritten mode]; rfl) (step machine mode)
  | awaitingKey =>
    have awake : machine.registers.mode ≠ .halted := by rw [mode]; decide
    cases queued : machine.board.keypad.queue with
    | nil =>
      have step : ∀ found : Machine, found.registers.mode = .awaitingKey →
          found.board.keypad.queue = [] → found.step.2 = found := by
        intro found awaiting empty
        rw [step_of_awaiting awaiting, pollKey_empty empty]
      exact .nothing (by rw [recording?, step machine.unwritten mode queued]; rfl)
        (step machine mode queued)
    | cons key rest =>
      -- A wait has a register to fill, and its word can be fetched again.
      obtain ⟨fetchable, x, register⟩ := sound.waits.waiting mode
      obtain ⟨word, fetched⟩ := machine.board.memory.readWord_of_fetchable fetchable
      have recorded := recording_of_records
        (records_polled machine.unwritten mode full register fetched queued)
      refine .entry _ awake ⟨recorded, rfl, rfl, rfl, ?_, fun failed => absurd rfl failed⟩
        (records_polled machine mode full register fetched queued) (fun _ => rfl)
      exact (congrArg Except.toOption fetched).symm
  | running =>
    have awake : machine.registers.mode ≠ .halted := by rw [mode]; decide
    -- A running machine has no register to fill, so halting has none to forget.
    have halt : machine.registers.halt = { machine.registers with mode := .halted } := by
      rw [Registers.halt, ← sound.waits.settled (by rw [mode]; decide)]
    cases fetched : machine.board.memory.readWord machine.registers.pc with
    | error fault =>
      have recorded := recording_of_records (records_unfetched machine.unwritten mode fetched)
      refine .entry _ awake ⟨recorded, rfl, rfl, rfl, ?_, fun _ => halt⟩
        (records_unfetched machine mode fetched) fun none => absurd none (Option.some_ne_none _)
      exact (congrArg Except.toOption fetched).symm
    | ok word =>
      have same := (congrArg Except.toOption fetched).symm
      rcases outcome : execute word machine.registers machine.board with ⟨fault | result, board⟩
      · have recorded := recording_of_records
          (records_refused machine.unwritten mode sound.registers fetched outcome)
        exact .entry _ awake ⟨recorded, rfl, rfl, rfl, same, fun _ => halt⟩
          (records_refused machine mode sound.registers fetched outcome)
          fun none => absurd none (Option.some_ne_none _)
      · have recorded := recording_of_records
          (records_executed machine.unwritten mode fetched outcome)
        refine .entry _ awake ⟨recorded, rfl, rfl, rfl, same, fun failed => absurd rfl failed⟩
          (records_executed machine mode fetched outcome) fun _ => ?_
        exact (settle_cycles machine word result).trans (execute_cycles sound.registers outcome)

end Machine

namespace Chronicle

variable {config : Config} {chronicle : Chronicle} {limit : Nat}

/-! ### Faithfulness is kept -/

/-- The chronicle of a machine that has just been loaded is empty. -/
theorem Faithful.of_fresh {machine : Machine} (empty : machine.recent = [])
    (fine : machine.lastError = none) (zero : machine.registers.cycleCount = 0) :
    Faithful limit { machine } where
  -- Without a recording there is nothing to ask, and a fault is not noted yet.
  window := by simp [Machine.trace, empty]
  genuine := by simp
  cycles := by simp
  chained := by simp
  faultless := by simp
  newest := by simp
  noted := by simp [fine]
  awake _ := ⟨zero, by simp⟩

/-- A chronicle stays faithful while only timers run down. -/
theorem Faithful.between (faithful : chronicle.Faithful limit) {left : Machine}
    (recent : left.recent = chronicle.machine.recent)
    (fault : left.lastError = chronicle.machine.lastError)
    (runs : chronicle.machine.registers.RunsDownTo left.registers) :
    Faithful limit { chronicle with machine := left } where
  -- What changes between two steps is recorded nowhere, and the registers only run down.
  window := by rw [Machine.trace, recent]; exact faithful.window
  genuine := faithful.genuine
  cycles := faithful.cycles
  chained := faithful.chained
  faultless := faithful.faultless
  newest recording last := (faithful.newest recording last).trans runs
  noted := by rw [fault]; exact faithful.noted
  awake alive := by
    rw [runs.cycleCount]
    exact faithful.awake (runs.mode ▸ alive)

/-- A window on the last entries moves on by one entry. -/
theorem window_snoc {recordings : List Recording} {recent : List TraceEntry} (last : Recording)
    (window : recent.reverse =
      (recordings.map Recording.entry).drop (recordings.length - limit)) :
    ((last.entry :: recent).take limit).reverse =
      ((recordings ++ [last]).map Recording.entry).drop
        ((recordings ++ [last]).length - limit) := by
  -- Read from its end, a window is the beginning of what it shows.
  have shown : ∀ all : List Recording, (all.map Recording.entry).drop (all.length - limit) =
      ((all.map Recording.entry).reverse.take limit).reverse := by
    intro all
    rw [List.take_reverse, List.reverse_reverse, List.length_map]
  rw [shown] at window ⊢
  rw [List.reverse_inj.mp window, List.map_append, List.reverse_append]
  cases limit with
  | zero => rfl
  | succ limit => simp [List.take_take]

/-- An element of a list with one more at its end is in the list, or is the last one. -/
theorem getElem?_snoc {α : Type} {list : List α} {last found : α} {place : Nat}
    (listed : (list ++ [last])[place]? = some found) :
    list[place]? = some found ∨ place = list.length ∧ found = last := by
  -- A place is in front of the new end, or is the end.
  rw [List.getElem?_append] at listed
  split at listed
  · exact .inl listed
  · rename_i behind
    obtain ⟨inside, same⟩ := List.getElem?_eq_some_iff.mp listed
    rw [List.length_singleton] at inside
    exact .inr ⟨by omega, by rw [← same, List.getElem_singleton]⟩

/-- A machine that has not halted notes no fault, because none was recorded. -/
theorem Faithful.unfailed (faithful : chronicle.Faithful limit)
    (awake : chronicle.machine.registers.mode ≠ .halted) : chronicle.machine.lastError = none := by
  obtain ⟨-, faultless⟩ := faithful.awake awake
  -- The note is that of the newest entry, if there is an entry.
  refine Option.map_eq_none_iff.mp (faithful.noted.trans ?_)
  refine Option.bind_eq_none_iff.mpr fun recording last => ?_
  exact faultless recording (List.mem_of_getLast? last)

/-- A chronicle stays faithful when a step records an entry. -/
theorem Faithful.snoc (faithful : chronicle.Faithful limit) {entry : TraceEntry}
    (settings : chronicle.machine.config.traceLimit = limit)
    (awake : chronicle.machine.registers.mode ≠ .halted)
    (genuine : Recording.Genuine ⟨chronicle.machine, entry⟩)
    (records : chronicle.machine.Records entry)
    (counts : entry.error? = none →
      entry.after.cycleCount = chronicle.machine.registers.cycleCount + 1) :
    Faithful limit
      { machine := chronicle.machine.step.2
        recordings := chronicle.recordings ++ [⟨chronicle.machine, entry⟩] } := by
  obtain ⟨recent, left, noted⟩ := records
  obtain ⟨counted, faultless⟩ := faithful.awake awake
  have before : entry.before = chronicle.machine.registers := genuine.before
  constructor
  case window =>
    rw [Machine.trace, recent, settings]
    exact window_snoc ⟨chronicle.machine, entry⟩ faithful.window
  case genuine =>
    exact List.forall_mem_append.mpr ⟨faithful.genuine, List.forall_mem_singleton.mpr genuine⟩
  case cycles =>
    -- As long as the machine runs, its count of cycles is the number of entries.
    intro place recording listed
    rcases getElem?_snoc listed with earlier | ⟨rfl, rfl⟩
    · exact faithful.cycles place recording earlier
    · rw [genuine.cycle, counted]
  case chained =>
    intro place first second found next
    rcases getElem?_snoc next with earlier | ⟨here, rfl⟩
    · rcases getElem?_snoc found with known | ⟨rfl, -⟩
      · exact faithful.chained place first second known earlier
      · obtain ⟨inside, -⟩ := List.getElem?_eq_some_iff.mp earlier
        omega
    · rcases getElem?_snoc found with known | ⟨rfl, -⟩
      · -- What the step has found is what the last entry before it had left.
        rw [before]
        refine faithful.newest first ?_
        rw [List.getLast?_eq_getElem?, ← here]
        exact known
      · omega
  case faultless =>
    rw [List.dropLast_concat]
    exact faultless
  case newest =>
    intro recording last
    rw [List.getLast?_concat] at last
    obtain rfl := Option.mem_some.mp last
    rw [left]
    exact .refl _
  case noted =>
    rw [noted, faithful.unfailed awake, Option.or_none, List.getLast?_concat]
    rfl
  case awake =>
    intro alive
    rw [left] at alive ⊢
    -- A fault would have halted the machine.
    have fine : entry.error? = none := by
      refine Decidable.byContradiction fun failed => alive ?_
      rw [genuine.fault failed]
    refine ⟨?_, List.forall_mem_append.mpr ⟨faultless, List.forall_mem_singleton.mpr fine⟩⟩
    rw [counts fine, counted, List.length_append]
    rfl

/-- A chronicle stays faithful in a step. -/
theorem Faithful.step (faithful : chronicle.Faithful config.traceLimit)
    (sound : chronicle.machine.Sound config) :
    chronicle.step.2.Faithful config.traceLimit := by
  -- A step records nothing, or one entry.
  cases sound.adds with
  | nothing silent kept =>
    simp only [Chronicle.step, silent, kept, Option.map_none, Option.toList_none, List.append_nil]
    exact faithful
  | entry entry awake genuine records counts =>
    have recorded : chronicle.machine.recording? = some entry := genuine.recorded
    simp only [Chronicle.step, recorded, Option.map_some, Option.toList_some]
    exact faithful.snoc (by rw [sound.settings]) awake genuine records counts

/-- What holds of all chronicles from power-on: machine and entries agree. -/
def Upheld (config : Config) (chronicle : Chronicle) : Prop :=
  chronicle.machine.Sound config ∧ chronicle.Faithful config.traceLimit

/-- The sleeps of a host uphold every chronicle that they find upheld. -/
def SleepsUphold {σ ε : Type} (config : Config) (host : Host σ ε) (notes : Notes σ) : Prop :=
  ∀ seconds world (chronicle : Chronicle), chronicle.Upheld config →
    Upheld config
      { machine := (host.sleep seconds world chronicle.machine).2.2
        recordings := notes seconds world chronicle }

namespace Upheld

/-- A step upholds a chronicle. -/
theorem step (upheld : chronicle.Upheld config) : chronicle.step.2.Upheld config :=
  ⟨upheld.1.step, upheld.2.step upheld.1⟩

/-- The steps of a run uphold a chronicle. -/
theorem stepMany (upheld : chronicle.Upheld config) (budget : Nat) :
    (Chronicle.stepMany budget chronicle).Upheld config := by
  -- The steps are taken one after the other, until one of them ends the run.
  induction budget generalizing chronicle with
  | zero => exact upheld
  | succ budget ih =>
    have next := upheld.step
    unfold Chronicle.stepMany
    split
    · exact upheld
    · split
      · rename_i stepped
        rw [stepped] at next
        exact ih next
      · rename_i stepped
        rwa [stepped] at next
      · rename_i stepped
        rwa [stepped] at next

/-- A load upholds a chronicle, whether it is refused or not. -/
theorem restarted {ε : Type} (upheld : chronicle.Upheld config)
    {attempt : Except ε Unit × Machine} (atomic : Atomic chronicle.machine attempt)
    (loads : ∀ left, attempt = (.ok (), left) →
      ∃ image, chronicle.machine.loadImage image = (.ok (), left)) :
    (chronicle.restarted attempt).Upheld config := by
  rcases attempt with ⟨reason | ⟨⟩, left⟩
  · -- A refusal leaves everything as it was.
    obtain rfl := atomic reason left rfl
    exact upheld
  · -- A load begins a new chronicle.
    obtain ⟨image, done⟩ := loads left rfl
    obtain ⟨empty, fine, zero⟩ := Machine.loadImage_blank done
    obtain ⟨memory, -, rfl⟩ := Machine.loadImage_eq_ok.mp done
    exact ⟨upheld.1.loaded image memory, .of_fresh empty fine zero⟩

/-- What happens between two steps upholds a chronicle. -/
theorem between (upheld : chronicle.Upheld config) {event : Event}
    (quiet : event.restarts = false) (rests : event.isStep = false)
    (idles : ∀ limit, event ≠ .run limit) :
    Upheld config { chronicle with machine := event.apply chronicle.machine } := by
  obtain ⟨recent, fault, runs⟩ := upheld.1.apply_between quiet rests idles
  exact ⟨upheld.1.apply event, upheld.2.between recent fault runs⟩

/-- An event upholds a chronicle. -/
theorem apply (upheld : chronicle.Upheld config) (event : Event) :
    (chronicle.apply event).Upheld config := by
  -- Only loads begin anew and only steps record, and nothing else looks at the trace.
  cases event with
  | loadImage image =>
    exact upheld.restarted (Machine.loadImage_atomic _ image) fun _ done => ⟨image, done⟩
  | loadSource source =>
    exact upheld.restarted (Machine.loadSource_atomic _ source) fun _ => Machine.loadSource_done
  | reset => exact upheld.restarted (Machine.loadImage_atomic _ _) fun _ done => ⟨_, done⟩
  | step => exact upheld.step
  | run limit => exact upheld.stepMany _
  | _ => exact upheld.between rfl rfl nofun

/-- Time upholds a chronicle. -/
theorem timing (upheld : chronicle.Upheld config) {events : List Event}
    (timing : ∀ event ∈ events, event.isTiming = true) :
    Upheld config { chronicle with machine := chronicle.machine.after events } := by
  -- Each of the events is between two steps.
  induction events generalizing chronicle with
  | nil => exact upheld
  | cons event rest ih =>
    obtain ⟨first, later⟩ := List.forall_mem_cons.mp timing
    have next : Upheld config { chronicle with machine := event.apply chronicle.machine } := by
      cases event with
      | tick | advance => exact upheld.between rfl rfl nofun
      | _ => cases first
    exact ih next later

/-- A pass of the realtime loop upholds a chronicle. -/
theorem pass (upheld : chronicle.Upheld config) {pace : Pace} {schedule next : Schedule}
    {now : Float} {ticks : Nat} {verdict : Except Fault Move} {left : Machine}
    (passed : (chronicle.machine.tickMany ticks).pass pace schedule now = (verdict, next, left)) :
    Upheld config { chronicle with machine := left } := by
  -- A pass does nothing but let the timers catch up.
  rw [← Machine.after_due passed]
  exact upheld.timing (Machine.timing_due pace schedule now ticks)

/-- The passes of a realtime loop uphold a chronicle, if the sleeps of its host do. -/
theorem passes {σ ε : Type} {host : Host σ ε} {notes : Notes σ}
    (upheld : chronicle.Upheld config) (sleeps : SleepsUphold config host notes)
    (pace : Pace) (fuel : Nat) (schedule : Schedule) (world : σ) :
    (Chronicle.passes host notes pace fuel schedule world chronicle).Upheld config := by
  -- The induction is on the passes that are left; each of them ends, sleeps or steps.
  induction fuel generalizing schedule world chronicle with
  | zero => exact upheld
  | succ fuel ih =>
    rcases look : host.look pace world with ⟨now, ticks, later⟩
    simp only [Chronicle.passes, look]
    split
    · exact upheld
    · split
      · rename_i passed
        exact upheld.pass passed
      · rename_i passed
        exact upheld.pass passed
      · -- The loop sleeps, and goes on unless the sleep is broken off.
        rename_i seconds next ready passed
        have slept := sleeps seconds later _ (upheld.pass passed)
        split
        · rename_i awake
          rwa [awake] at slept
        · rename_i awake
          rw [awake] at slept
          exact ih slept _ _
      · -- The loop steps, and goes on unless the step is refused.
        rename_i next ready passed
        have stepped := (upheld.pass passed).step
        split
        · rename_i left
          rwa [left] at stepped
        · rename_i left
          rw [left] at stepped
          exact ih stepped _ _

/-- A realtime run upholds a chronicle, if the sleeps of its host do. -/
theorem runRealtime {σ ε : Type} {host : Host σ ε} {notes : Notes σ}
    (upheld : chronicle.Upheld config) (sleeps : SleepsUphold config host notes)
    (pace : Pace) (fuel : Nat) (world : σ) :
    (chronicle.runRealtime host notes pace fuel world).Upheld config := by
  -- Entering and leaving the loop turn to the driver and to the request to stop only.
  have entered : Upheld config
      { chronicle with machine := chronicle.machine.enterRealtime pace } := by
    obtain ⟨sound, faithful⟩ := upheld
    unfold Machine.enterRealtime
    split <;> exact ⟨{ sound with }, faithful.between rfl rfl (.refl _)⟩
  rcases clock : host.clock world with ⟨start, later⟩
  have looped := entered.passes sleeps pace fuel { start, last := start, next := start } later
  simp only [Chronicle.runRealtime, clock]
  rw [← Machine.after_ticks]
  obtain ⟨sound, faithful⟩ := looped.timing (Machine.timing_ticks _)
  exact ⟨{ sound with }, faithful.between rfl rfl (.refl _)⟩

/-- Whatever goes on upholds a chronicle. -/
theorem continues {last : Chronicle} (upheld : chronicle.Upheld config)
    (continues : Continues chronicle last) : last.Upheld config := by
  -- Events and realtime runs uphold what they find, and the sleeps do by induction.
  induction continues with
  | refl => exact upheld
  | event event _ ih => exact (ih upheld).apply event
  | realtime host notes pace passes world _ _ sleeps ih =>
    exact (ih upheld).runRealtime (fun _ _ _ before => sleeps _ _ _ before) pace passes world

end Upheld

/-- Every chronicle from power-on is upheld. -/
theorem Kept.upheld (kept : chronicle.Kept config) : chronicle.Upheld config := by
  obtain ⟨random, continues⟩ := kept
  -- At power-on nothing is recorded yet.
  have fresh : Upheld config { machine := .withRandom config random } :=
    ⟨.withRandom config random, .of_fresh rfl rfl rfl⟩
  exact fresh.continues continues

/--
The trace is a faithful window without gaps.

Whatever a host does, from power-on, with steps, runs, realtime runs, ticks, keys and writes, the
trace shows the last entries that were recorded since the last load or reset.
The entries count the cycles from zero, say what their steps have found, and each begins where the
one before it ended, but for timers that ran down; only the newest one can be of a fault.
-/
theorem trace_faithful (config : Config) :
    (∀ machine : Machine, machine.Reachable config ↔
        ∃ chronicle : Chronicle, chronicle.Kept config ∧ chronicle.machine = machine) ∧
      ∀ chronicle : Chronicle, chronicle.Kept config → chronicle.Faithful config.traceLimit := by
  refine ⟨fun machine => reachable_iff_kept, ?_⟩
  intro chronicle kept
  exact kept.upheld.2

/-- The standard settings, with room for two entries in the trace. -/
def forgetful : Config :=
  { Config.standard with traceLimit := 2 }

/-- A chronicle of a delay, of a wait that a key ends, and of a word that has no instruction. -/
def eventful : Chronicle :=
  Chronicle.after { machine := .new forgetful (.seeded 0) }
    [.loadImage [0x60, 0x05, 0xF0, 0x15, 0xF0, 0x0A, 0x80, 0x08], .step, .step, .tick, .run 100,
      .press 7, .step, .tick, .step]

/-- The chronicle is one from power-on. -/
theorem eventful_kept : eventful.Kept forgetful :=
  ⟨.seeded 0, (Continues.refl _).after _⟩

/-- Five entries were recorded, of which the trace shows the last two. -/
theorem trace_faithful_eventful :
    eventful.recordings.map (fun recording => recording.entry.cycle) = [0, 1, 2, 3, 4] ∧
      eventful.machine.trace.map TraceEntry.cycle = [3, 4] ∧
      eventful.machine.trace.map TraceEntry.error? =
        [none, some "Unknown opcode: 0x8008 at 0x206"] ∧
      eventful.machine.Reachable forgetful ∧ eventful.Faithful 2 := by
  obtain ⟨reachable, faithful⟩ := trace_faithful forgetful
  exact ⟨by decide +kernel, by decide +kernel, by decide +kernel,
    (reachable _).mpr ⟨eventful, eventful_kept, rfl⟩, faithful eventful eventful_kept⟩

end Chronicle

end Chip8
