import Chip8.Inspection
import Chip8.Proofs.CommandLine.HeadlessKeys
import Chip8.Proofs.Machine.FaultNotes
import Chip8.Proofs.Machine.Halting
import Chip8.Proofs.Machine.LoadErrors

/-!
The notes of a fault, and what the drivers of a machine make of them.

A headless session and an inspection catch every refusal that a program can meet, and the exit code
of a session tells an idle loop from everything else.
-/

namespace Chip8

/-- The faults that a driver catches and reports; any other would break it off. -/
def Fault.isReported : Fault → Bool
  | .outOfBounds .. | .unknownOpcode .. | .programTooLarge .. | .halted | .cycleLimit _ => true
  | .invalidRegister _ | .missingEntry | .unwritableEntry | .invalidKey _ | .undefinedTime
  | .infiniteTime => false

/-- A text that does not assemble is reported, and so is a fault in loading that is reported. -/
def LoadError.isReported : LoadError → Bool
  | .assembly _ => true
  | .refused fault => fault.isReported

/-- The faults of a guest program are reported. -/
theorem Fault.IsGuest.reported {fault : Fault} (guest : fault.IsGuest) :
    fault.isReported = true := by
  rcases guest with ⟨access, location, rfl⟩ | ⟨word, location, rfl⟩ <;> rfl

/-! ### Refusals -/

namespace Machine

variable {config : Config} {machine left : Machine}

/-- Why an image is refused is reported. -/
theorem loadImage_reported {image : List Byte} {fault : Fault}
    (refused : machine.loadImage image = (.error fault, left)) : fault.isReported = true := by
  -- Both causes for which memory refuses an image are reported.
  obtain ⟨-, unfilled⟩ := loadImage_error refused
  obtain ⟨-, causes⟩ := Memory.load_error (Prod.ext unfilled rfl)
  rcases causes with rfl | ⟨limit, rfl⟩ <;> rfl

/-- A source text is refused for a reason that is reported. -/
theorem loadSource_reported {source : List Char} {reason : LoadError}
    (refused : machine.loadSource source = (.error reason, left)) : reason.isReported = true := by
  -- The text does not assemble, or its image is refused.
  rcases loadSource_error refused with ⟨error, -, rfl⟩ | ⟨image, fault, -, unloaded, rfl⟩
  · rfl
  · exact loadImage_reported unloaded

/-- A machine that a reachable machine becomes by a load is reachable. -/
theorem Reachable.loaded (reachable : machine.Reachable config) {image : List Byte}
    (done : machine.loadImage image = (.ok (), left)) : left.Reachable config := by
  -- A load is an event.
  have same : machine.after [.loadImage image] = left := by
    rw [after_cons, after_nil, Event.apply, done]
  exact same ▸ reachable.after [.loadImage image]

/-- A step that does not find its machine halted notes the fault by which it is refused. -/
theorem Sound.step_noted (sound : machine.Sound config) (awake : machine.registers.mode ≠ .halted)
    {result : StepResult} (stepped : machine.step = (result, left)) :
    left.lastError = result.fault?.or machine.lastError := by
  -- Only a refusal notes anything, and a halted machine was ruled out.
  cases sound.steps stepped with
  | halted mode => exact absurd mode awake
  | fruitless | delivered | executed | failed => rfl

/-- A run notes the fault of its last step, if that is refused, and no other. -/
theorem RunsTo.noted {limit : Int} {results : List StepResult} (sound : machine.Sound config)
    (runs : RunsTo limit machine results left) :
    left.lastError = (results.getLast?.bind StepResult.fault?).or machine.lastError := by
  induction runs with
  | rest => rfl
  | @cycle _ _ _ _ results goes stepped _ ih =>
    -- A completed cycle has noted nothing, and is not the last step if there are others.
    rw [ih (sound.stepped stepped), sound.step_noted goes.1 stepped, List.getLast?_cons]
    cases results.getLast? <;> rfl
  | wait goes stepped | fault goes stepped => exact sound.step_noted goes.1 stepped

/-- The machine has halted in an idle loop, as its settings ask for, and not by a fault. -/
structure RestsIdly (machine : Machine) : Prop where
  halted : machine.registers.mode = .halted
  faultless : machine.lastError = none
  told : machine.config.haltOnIdleLoop = true
  jumps : ∃ word, machine.JumpsInPlace word

end Machine

namespace Session

variable {config : Config} {machine left : Machine}

/-! ### How a headless session ends -/

/-- How the run of a headless session ends, what it leaves, and the exit code that tells it. -/
inductive HeadlessEnd (left : Machine) : RunEnd → Nat → Prop where
  /-- A fault of the program has halted the machine, and is noted on it. -/
  | faulted {fault : Fault} (guest : fault.IsGuest) (halted : left.registers.mode = .halted)
    (noted : left.lastError = some fault) : HeadlessEnd left (.faulted fault) 1
  /-- The cycle limit was reached by a machine that still runs. -/
  | exhausted (running : left.registers.mode = .running) :
    HeadlessEnd left (.faulted (.cycleLimit left.config.maxCycles)) 1
  /-- The machine waits for a key. -/
  | unanswered (awaiting : left.registers.mode = .awaitingKey) : HeadlessEnd left .finished 1
  /-- The machine has halted in an idle loop. -/
  | idle (rests : left.RestsIdly) : HeadlessEnd left .finished 0

/-- A run that is the last one of a headless session ends in one of four ways. -/
theorem ends_of_run {verdict : Except Fault Unit} (reachable : machine.Reachable config)
    (awake : machine.registers.mode ≠ .halted)
    (ran : machine.run machine.config.maxCycles = (verdict, left)) :
    (∀ fault, verdict = .error fault → ∃ code, HeadlessEnd left (.faulted fault) code) ∧
      (verdict = .ok () → ∃ code, HeadlessEnd left .finished code) := by
  have sound := reachable.sound
  obtain ⟨runs, ends⟩ := Machine.run_runsTo sound machine.config.maxCycles
  have noted := runs.noted sound
  have moved := (Machine.Sound.stable config).run machine.config.maxCycles sound
  -- Until the run no fault was met, so a machine that it halts without one is in an idle loop.
  have idly := ((Machine.idlyHalted_lasting config).stable.run machine.config.maxCycles
    ⟨sound, fun halted => absurd halted awake⟩).2
  rw [reachable.unfailed awake, Option.or_none] at noted
  rw [ran] at ends noted moved idly
  dsimp only at ends noted moved idly
  cases ends with
  | faulted guest last halted =>
    -- The last step was refused, and its fault was noted.
    rw [last] at noted
    refine ⟨?_, nofun⟩
    rintro _ ⟨⟩
    exact ⟨1, .faulted guest halted noted⟩
  | exhausted _ running =>
    refine ⟨?_, nofun⟩
    rintro _ ⟨⟩
    have same : left.config = machine.config := moved.settings.trans sound.settings.symm
    rw [← same]
    exact ⟨1, .exhausted running⟩
  | settled unrefused rests =>
    refine ⟨nofun, fun _ => ?_⟩
    rcases rests with halted | awaiting
    · -- Without a refused step no fault was noted, so the machine was halted by its idle loop.
      have faultless : left.lastError = none := by
        refine noted.trans (Option.bind_eq_none_iff.mpr fun result last => ?_)
        exact unrefused result (List.mem_of_getLast? last)
      obtain ⟨told, jumps⟩ := idly halted faultless
      exact ⟨0, .idle ⟨halted, faultless, told, jumps⟩⟩
    · exact ⟨1, .unanswered awaiting⟩

/-- The loop of a headless session ends in one of four ways. -/
theorem Turns.ends {keys : List Key} {result : RunEnd × Machine} {watch : Watch}
    (turns : Turns machine keys result watch) (reachable : machine.Reachable config)
    (awake : machine.registers.mode ≠ .halted) :
    ∃ code, HeadlessEnd result.2 result.1 code := by
  induction turns with
  | broken ran => exact (ends_of_run reachable awake ran).1 _ rfl
  | ended ran => exact (ends_of_run reachable awake ran).2 rfl
  | @fed machine key _ left _ _ ran awaiting _ ih =>
    -- The next run begins at a wait, which has not halted.
    have next : (tapKey left key).Reachable config := by
      rw [tapKey_of_ran reachable.sound ran]
      exact reachable.after _
    obtain ⟨keypad, tapped⟩ := after_taps left key
    refine ih next ?_
    rw [tapKey_eq, tapped]
    exact fun halted => absurd (awaiting.symm.trans halted) (by decide)

/-- The exit code of a session tells how its run has ended, and no end breaks the session off. -/
theorem HeadlessEnd.concluded {ending : RunEnd} {code : Nat} (ends : HeadlessEnd left ending code)
    (request : Request) :
    (conclude request ending left).exitCode = code ∧
      (conclude request ending left).complaint = none := by
  -- The code depends on the noted fault, the mode and the way the run ended.
  cases ends with
  | faulted _ _ noted => simp [conclude, exitCode, noted]
  | exhausted running => simp [conclude, exitCode, Registers.halted, running]
  | unanswered awaiting => simp [conclude, exitCode, Registers.halted, awaiting]
  | idle rests => simp [conclude, exitCode, Registers.halted, rests.halted, rests.faultless]

/-- Success is told of idle loops only. -/
theorem HeadlessEnd.zero_iff {ending : RunEnd} {code : Nat} (ends : HeadlessEnd left ending code) :
    code = 0 ↔ ending = .finished ∧ left.RestsIdly := by
  -- Three of the four ends have a code of one.
  cases ends with
  | faulted | exhausted => simp
  | unanswered awaiting =>
    constructor
    · nofun
    · rintro ⟨-, rests⟩
      cases awaiting.symm.trans rests.halted
  | idle rests => exact ⟨fun _ => ⟨rfl, rests⟩, fun _ => rfl⟩

/-! ### Headless sessions -/

/-- The file that a source names is there, and holds a text if it must. -/
def Readable (file : List Char → Option (List Byte)) : Source → Prop
  | .rom path => ∃ image, file path = some image
  | .program path => ∃ bytes text, file path = some bytes ∧ textOf? bytes = some text
  | .inlineText _ => True

/-- What comes of a headless session, and the exit code that tells it. -/
inductive HeadlessStatus (request : Request) (file : List Char → Option (List Byte))
    (chance : ByteSource) : Nat → Prop where
  /-- The program was not loaded, for a reason that is reported. -/
  | unloaded {reason : LoadError} (reported : reason.isReported = true)
    (refused : load (.new request.config chance) request.source file =
      .error (loadFailed reason.message)) : HeadlessStatus request file chance 1
  /-- The program was loaded and run. -/
  | ran {machine left : Machine} {ending : RunEnd} {code : Nat}
    (loaded : load (.new request.config chance) request.source file = .ok machine)
    (ran : runHeadless machine request.keys = (ending, left))
    (ends : HeadlessEnd left ending code) : HeadlessStatus request file chance code

/-- What a headless session promises about its result. -/
structure HeadlessContract (request : Request) (file : List Char → Option (List Byte))
    (chance : ByteSource) (result : Result) : Prop where
  /-- Nothing breaks the session off. -/
  unbroken : result.complaint = none
  /-- The exit code is zero or one, and tells what came of the session. -/
  status : HeadlessStatus request file chance result.exitCode
  /-- It is zero exactly for programs that were loaded and halted in an idle loop. -/
  success : result.exitCode = 0 ↔ ∃ machine left,
    load (.new request.config chance) request.source file = .ok machine ∧
      runHeadless machine request.keys = (.finished, left) ∧ left.RestsIdly

/-- A refused attempt to load is reported by its message. -/
theorem loadedOr_eq_error {ε : Type} {message : ε → String} {attempt : Except ε Unit × Machine}
    {result : Result} (refused : loadedOr message attempt = .error result) :
    ∃ reason left, attempt = (.error reason, left) ∧ result = loadFailed (message reason) := by
  rcases attempt with ⟨reason | ⟨⟩, left⟩
  · exact ⟨reason, left, rfl, (Except.error.inj refused).symm⟩
  · cases refused

/-- A source that can be read is refused for reasons that are reported. -/
theorem load_refused {source : Source} {file : List Char → Option (List Byte)} {result : Result}
    (readable : Readable file source) (refused : load machine source file = .error result) :
    ∃ reason : LoadError, reason.isReported = true ∧ result = loadFailed reason.message := by
  -- The file is there, so only its contents can be refused.
  unfold load at refused
  cases source with
  | rom path =>
    obtain ⟨image, there⟩ := readable
    simp only [there] at refused
    obtain ⟨fault, left, unloaded, rfl⟩ := loadedOr_eq_error refused
    exact ⟨.refused fault, Machine.loadImage_reported unloaded, rfl⟩
  | program path =>
    obtain ⟨bytes, text, there, legible⟩ := readable
    simp only [there, legible] at refused
    obtain ⟨reason, left, unloaded, rfl⟩ := loadedOr_eq_error refused
    exact ⟨reason, Machine.loadSource_reported unloaded, rfl⟩
  | inlineText text =>
    obtain ⟨reason, left, unloaded, rfl⟩ := loadedOr_eq_error refused
    exact ⟨reason, Machine.loadSource_reported unloaded, rfl⟩

/-- A headless session on a source that can be read keeps its promises. -/
theorem headless_contract {file : List Char → Option (List Byte)} {chance : ByteSource}
    {maxSleeps passes : Nat} {texts : List (List Char)} {request : Request}
    (parsed : Request.ofTexts texts = .ok request) (headless : request.realtime = false)
    (readable : Readable file request.source) :
    HeadlessContract request file chance (simulate file chance maxSleeps passes texts) := by
  simp only [simulate, parsed, headless, Bool.false_eq_true, if_false]
  cases outcome : load (.new request.config chance) request.source file with
  | error result =>
    -- A program that is not loaded has no run that could end well.
    obtain ⟨reason, reported, rfl⟩ := load_refused readable outcome
    refine ⟨rfl, .unloaded reported outcome, nofun, ?_⟩
    rintro ⟨machine, left, loaded, -⟩
    cases outcome.symm.trans loaded
  | ok machine =>
    obtain ⟨image, done⟩ := load_done outcome
    have reachable := (Machine.Reachable.new request.config chance).loaded done
    have awake : machine.registers.mode ≠ .halted := by
      rw [(Machine.loadImage_runs done).1]
      decide
    -- The turns end with the last run, whose ending gives the exit code.
    have turns := watchHeadless_turns machine request.keys
    rw [watchHeadless_fst] at turns
    rcases ran : runHeadless machine request.keys with ⟨ending, left⟩
    rw [ran] at turns
    obtain ⟨code, ends⟩ := turns.ends reachable awake
    obtain ⟨told, unbroken⟩ := ends.concluded request
    dsimp only at told unbroken ends ⊢
    rw [ran]
    refine ⟨unbroken, ?_, ?_⟩
    · dsimp only
      rw [told]
      exact .ran outcome ran ends
    · dsimp only
      rw [told, ends.zero_iff]
      constructor
      · rintro ⟨rfl, rests⟩
        exact ⟨machine, left, outcome, ran, rests⟩
      · -- There is one machine that is loaded, and one way in which it runs.
        rintro ⟨other, final, loaded, again, rests⟩
        obtain rfl := Except.ok.inj (outcome.symm.trans loaded)
        obtain ⟨rfl, rfl⟩ := Prod.mk.inj (ran.symm.trans again)
        exact ⟨rfl, rests⟩

end Session

namespace Inspection

/-! ### Inspections -/

/-- The ways in which an inspection comes to its texts, in each of which refusals are reported. -/
inductive Reports (source : List Char) (settings : Settings) (chance : ByteSource) :
    Inspection → Prop where
  /-- There is nothing to run. -/
  | blank (blank : source.all isBlank = true) :
    Reports source settings chance (failed "No program provided")
  /-- The settings are refused. -/
  | unsettled {error : SettingsError} (refused : settings.check = .error error) :
    Reports source settings chance (failed error.message)
  /-- The program is not loaded, for a reason that is reported. -/
  | unloaded {config : Config} {left : Machine} {reason : LoadError}
    (settled : settings.check = .ok config)
    (refused : (Machine.new config chance).loadSource source = (.error reason, left))
    (reported : reason.isReported = true) : Reports source settings chance (failed reason.message)
  /-- The program is run, and what ends its run is reported. -/
  | faulted {config : Config} {machine left : Machine} {fault : Fault}
    (settled : settings.check = .ok config)
    (loaded : (Machine.new config chance).loadSource source = (.ok (), machine))
    (ran : machine.run config.maxCycles = (.error fault, left))
    (reported : fault.isReported = true) :
    Reports source settings chance (ofMachine left (some fault))
  /-- The program is run until it halts or waits for a key. -/
  | finished {config : Config} {machine left : Machine} (settled : settings.check = .ok config)
    (loaded : (Machine.new config chance).loadSource source = (.ok (), machine))
    (ran : machine.run config.maxCycles = (.ok (), left)) :
    Reports source settings chance (ofMachine left none)

/-- The fault that ends a run is reported. -/
theorem run_reported {config : Config} {machine left : Machine} {limit : Int} {fault : Fault}
    (sound : machine.Sound config) (ran : machine.run limit = (.error fault, left)) :
    fault.isReported = true := by
  -- A run is refused by a fault of the guest, or by the limit of its cycles.
  have ends := (Machine.run_runsTo sound limit).2
  rw [ran] at ends
  cases ends with
  | faulted guest => exact guest.reported
  | exhausted => rfl

/-- An inspection reports what came of its source, whatever the source and the settings are. -/
theorem ofSource_reports (source : List Char) (settings : Settings) (chance : ByteSource) :
    Reports source settings chance (ofSource source settings chance) := by
  -- The checks are made one after the other, and the run comes last.
  unfold ofSource
  split
  · rename_i blank
    exact .blank blank
  · cases settled : settings.check with
    | error error => exact .unsettled settled
    | ok config =>
      dsimp only
      have sound := (Machine.Reachable.new config chance).sound.loadSource source
      rcases loaded : (Machine.new config chance).loadSource source with ⟨reason | ⟨⟩, machine⟩
      · exact .unloaded settled loaded (Machine.loadSource_reported loaded)
      · rw [loaded] at sound
        dsimp only at sound ⊢
        rcases ran : machine.run config.maxCycles with ⟨fault | ⟨⟩, left⟩
        · exact .faulted settled loaded ran (run_reported sound ran)
        · exact .finished settled loaded ran

end Inspection

/--
The records of a fault agree, and every driver reports what can go wrong.

On every reachable machine a fault is noted only if the machine has halted, and since the last load
only the newest recorded entry can be of a fault, which is then the one that is noted; loads and
resets clear the note.
A headless session on a source that can be read is never broken off, and its exit code is zero
exactly if the program was loaded and halted in an idle loop without a fault.
An inspection reports what came of its source, whatever the source and the settings are.
-/
theorem faults_noted_and_reported :
    (∀ config (machine : Machine), machine.Reachable config ↔
        ∃ chronicle : Chronicle, chronicle.Kept config ∧ chronicle.machine = machine) ∧
      (∀ config (chronicle : Chronicle), chronicle.Kept config →
        chronicle.Noted config.traceLimit ∧
          ∀ left, chronicle.machine.Reloads left → left.lastError = none ∧ left.trace = []) ∧
      (∀ file chance maxSleeps passes texts request, Request.ofTexts texts = .ok request →
        request.realtime = false → Session.Readable file request.source →
          Session.HeadlessContract request file chance
            (Session.simulate file chance maxSleeps passes texts)) ∧
      ∀ source settings chance, Inspection.Reports source settings chance
        (Inspection.ofSource source settings chance) := by
  -- The chronicle is the machine with its memory of all steps, and the rest is about its ends.
  refine ⟨?_, ?_, ?_, ?_⟩
  · intro config machine
    exact Chronicle.reachable_iff_kept
  · intro config chronicle kept
    exact ⟨kept.agrees, fun left reloads => reloads.cleared⟩
  · intro file chance maxSleeps passes texts request parsed headless readable
    exact Session.headless_contract parsed headless readable
  · intro source settings chance
    exact Inspection.ofSource_reports source settings chance

/-- The words of a quiet session on a source text. -/
def quietly (source : String) : List (List Char) :=
  ["-i", source, "-q"].map String.toList

/-- A wait, an idle loop and an unknown word, noted, told by an exit code, and inspected. -/
theorem faults_noted_and_reported_thrice :
    Chronicle.eventful.Noted 2 ∧
      Chronicle.eventful.machine.lastError = some (.unknownOpcode 0x8008 (some 0x206)) ∧
      (∃ request, Session.HeadlessContract request (fun _ => none) (.seeded 0)
        (Session.simulate (fun _ => none) (.seeded 0) 0 0 (quietly "e: JP e"))) ∧
      (Session.simulate (fun _ => none) (.seeded 0) 0 0 (quietly "e: JP e")).exitCode = 0 ∧
      (Session.simulate (fun _ => none) (.seeded 0) 0 0 (quietly "LD V0, K")).exitCode = 1 ∧
      Inspection.Reports "DW 0x8008".toList {} (.seeded 0)
        (Inspection.ofSource "DW 0x8008".toList {} (.seeded 0)) := by
  obtain ⟨-, noted, contract, reports⟩ := faults_noted_and_reported
  have session : (Request.ofTexts (quietly "e: JP e")).toOption.map
      (fun request => (request.realtime, request.source)) =
        some (false, .inlineText "e: JP e".toList) := by decide +kernel
  -- The texts are those of a request without realtime, on a program given inline.
  cases parsed : Request.ofTexts (quietly "e: JP e") with
  | error refusal =>
    rw [parsed] at session
    cases session
  | ok request =>
    rw [parsed] at session
    obtain ⟨headless, source⟩ := Prod.mk.inj (Option.some.inj session)
    have readable : Session.Readable (fun _ => none) request.source := by
      rw [source]
      trivial
    refine ⟨(noted _ _ Chronicle.eventful_kept).1, by decide +kernel, ⟨request, ?_⟩,
      by decide +kernel, by decide +kernel, reports _ _ _⟩
    exact contract _ (.seeded 0) 0 0 (quietly "e: JP e") request parsed headless readable

end Chip8
