import Chip8.Proofs.Machine.Journal
import Chip8.Proofs.Machine.Verdict

/-!
How a realtime run ends, whatever its clock says and whenever its host asks it to stop.

Without its clock a pass is this: nothing happens if a stop was asked for or the run is over, and
otherwise some time is spent, and then the loop is left, sleeps or takes a step.
A step is taken by a machine that has not halted, and only before a stop is asked for.
-/

namespace Chip8

/-- The sleeps of a script use the keypad and ask to stop, and do nothing else. -/
def Script.KeysOrStop {σ ε : Type} (script : Script σ ε) : Prop :=
  ∀ seconds world machine, ∀ event ∈ (script.sleep seconds world machine).2.2,
    event.isKey = true ∨ event = .stop

namespace Machine

/--
The passes of a realtime loop without their clock, behind some number of issued steps.

Whatever the clock says, each pass takes one of these ways.
-/
inductive Rounds {σ ε : Type} (script : Script σ ε) (pace : Pace) :
    Nat → Machine → List Event → Exit ε → Machine → Prop where
  /-- The passes that are allowed for are used up. -/
  | unfinished {issued machine} : Rounds script pace issued machine [] .unfinished machine
  /-- A stop was asked for. -/
  | asked {issued machine} (asked : machine.stopRequested = true) :
    Rounds script pace issued machine [] (.returned issued) machine
  /-- The time of a limited run is over. -/
  | expired {issued machine spent} (unasked : machine.stopRequested = false)
    (timing : ∀ event ∈ spent, event.isTiming = true) (limited : pace.duration ≠ none) :
    Rounds script pace issued machine spent (.returned issued) (machine.after spent)
  /-- The time that was spent is no number of ticks. -/
  | timeless {issued machine spent fault} (unasked : machine.stopRequested = false)
    (timing : ∀ event ∈ spent, event.isTiming = true) (other : fault ≠ .halted) :
    Rounds script pace issued machine spent (.faulted fault) (machine.after spent)
  /-- The machine has halted with idle timers. -/
  | rested {issued machine spent} (unasked : machine.stopRequested = false)
    (timing : ∀ event ∈ spent, event.isTiming = true)
    (halted : (machine.after spent).registers.mode = .halted)
    (idle : (machine.after spent).registers.timersRunning = false) :
    Rounds script pace issued machine spent (.returned issued) (machine.after spent)
  /-- A sleep does not return. -/
  | interrupted {issued machine spent seconds world reason awake events}
    (unasked : machine.stopRequested = false) (timing : ∀ event ∈ spent, event.isTiming = true)
    (slept : script.sleep seconds world (machine.after spent) = (.error reason, awake, events)) :
    Rounds script pace issued machine (spent ++ events) (.interrupted reason)
      ((machine.after spent).after events)
  /-- The loop goes on after a sleep. -/
  | sleeping {issued machine spent seconds world awake events more exit final}
    (unasked : machine.stopRequested = false) (timing : ∀ event ∈ spent, event.isTiming = true)
    (slept : script.sleep seconds world (machine.after spent) = (.ok (), awake, events))
    (rest : Rounds script pace issued ((machine.after spent).after events) more exit final) :
    Rounds script pace issued machine (spent ++ (events ++ more)) exit final
  /-- A step is refused. -/
  | refused {issued machine spent fault after} (unasked : machine.stopRequested = false)
    (timing : ∀ event ∈ spent, event.isTiming = true)
    (awake : (machine.after spent).registers.mode ≠ .halted)
    (stepped : (machine.after spent).step = (.refused fault, after)) :
    Rounds script pace issued machine (spent ++ [.step]) (.faulted fault) after
  /-- The loop goes on after a step that was not refused. -/
  | stepping {issued machine spent result after more exit final}
    (unasked : machine.stopRequested = false) (timing : ∀ event ∈ spent, event.isTiming = true)
    (awake : (machine.after spent).registers.mode ≠ .halted)
    (stepped : (machine.after spent).step = (result, after))
    (unrefused : ∀ fault, result ≠ .refused fault)
    (rest : Rounds script pace (issued + 1) after more exit final) :
    Rounds script pace issued machine (spent ++ .step :: more) exit final

variable {σ ε : Type} {script : Script σ ε} {pace : Pace} {schedule next : Schedule} {now : Float}
  {config : Config} {machine left final : Machine} {events : List Event} {exit : Exit ε}
  {issued : Nat}

/-! ### Passes -/

/-- Seconds are refused for being no number, and not because the machine has halted. -/
theorem advance_refused {seconds : Float} {fault : Fault}
    (refused : (machine.advanceTimers seconds).1 = .error fault) : fault ≠ .halted := by
  -- Only an infinity or a number that is none is refused, and each has a fault of its own.
  simp only [advanceTimers, Timers.advance, wholePart] at refused
  rintro rfl
  split at refused
  · rename_i unreadable
    obtain rfl := Except.error.inj refused
    split at unreadable
    · split at unreadable <;> cases unreadable
    · cases unreadable
  · cases refused

/-- A pass is refused for its time only. -/
theorem pass_refused {fault : Fault}
    (passed : machine.pass pace schedule now = (.error fault, next, left)) : fault ≠ .halted := by
  -- The timers of a thread are not asked, so it is the time since the last reading.
  unfold pass at passed
  split at passed
  · cases passed
  · dsimp only at passed
    split at passed
    · rename_i refused
      obtain rfl := Except.error.inj (Prod.mk.inj passed).1
      cases background : pace.background with
      | true =>
        rw [background] at refused
        cases refused
      | false =>
        rw [background] at refused
        exact advance_refused refused
    · cases passed

/-- A pass that goes on to some move has chosen it for the machine that it leaves. -/
theorem pass_chooses {move : Move}
    (passed : machine.pass pace schedule now = (.ok move, next, left))
    (lasting : isOver pace schedule now = false) :
    ∃ schedule, left.chooseMove pace schedule now = move := by
  -- A run that is not over notes the time before it chooses.
  rcases pass_ok passed with ⟨late, -⟩ | ⟨-, -, chosen⟩
  · rw [lasting] at late
    cases late
  · exact ⟨_, chosen⟩

/-- A run that is over leaves the loop in the next pass. -/
theorem pass_of_over (machine : Machine) (expired : isOver pace schedule now = true) :
    machine.pass pace schedule now = (.ok .leave, schedule, machine) ∧ pace.duration ≠ none := by
  -- Without a duration no time is too late.
  refine ⟨?_, ?_⟩
  · simp only [pass, expired, if_true]
  · intro unlimited
    simp only [isOver, unlimited, Bool.false_eq_true] at expired

/-- A loop without a limit is left when the machine has halted with idle timers. -/
theorem rested_of_leave (chosen : machine.chooseMove pace schedule now = .leave) :
    machine.registers.mode = .halted ∧ machine.registers.timersRunning = false := by
  -- The other moves are to sleep, and to issue a step.
  unfold chooseMove at chosen
  split at chosen
  · rename_i halted
    split at chosen
    · rename_i rests
      obtain ⟨-, idle⟩ := (Bool.and_eq_true _ _).mp rests
      refine ⟨?_, ?_⟩
      · simpa [Registers.halted] using halted
      · simpa using idle
    · cases chosen
  · split at chosen <;> cases chosen

/-- The passes of the loop are rounds in which the events of the journal happen. -/
theorem passes_rounds (script : Script σ ε) (pace : Pace) (fuel : Nat) (schedule : Schedule)
    (world : σ) (machine : Machine) :
    Rounds script pace schedule.issued machine (journal script pace fuel schedule world machine)
      (passes script.host pace fuel schedule world machine).1
      (passes script.host pace fuel schedule world machine).2.2 := by
  -- Each turn of the loop is one of the rounds, with what is due before its move.
  induction fuel generalizing schedule world machine with
  | zero => exact .unfinished
  | succ fuel ih =>
    rcases look : script.host.look pace world with ⟨now, ticks, later⟩
    simp only [passes_succ, journal, Script.host_sleep, look]
    by_cases asked : machine.stopRequested = true
    · -- A stop is looked for before anything else.
      rw [if_pos asked, if_pos asked]
      exact .asked asked
    · rw [if_neg asked, if_neg asked]
      have unasked : machine.stopRequested = false := by simpa using asked
      have timing := timing_due pace schedule now ticks
      cases expired : isOver pace schedule now with
      | true =>
        obtain ⟨passed, limited⟩ := pass_of_over (machine.tickMany ticks) expired
        rw [passed, List.append_nil, ← after_due passed]
        exact .expired unasked timing limited
      | false =>
        -- What is due is spent, and then the machine has a move chosen for it.
        rcases passed : (machine.tickMany ticks).pass pace schedule now with
          ⟨fault | - | seconds | -, next, left⟩
        · obtain rfl := after_due passed
          rw [List.append_nil]
          exact .timeless unasked timing (pass_refused passed)
        · obtain rfl := after_due passed
          obtain ⟨_, chosen⟩ := pass_chooses passed expired
          obtain ⟨halted, idle⟩ := rested_of_leave chosen
          dsimp only
          rw [List.append_nil, issued_of_pass passed]
          exact .rested unasked timing halted idle
        · obtain rfl := after_due passed
          dsimp only
          rcases slept : script.sleep seconds later _ with ⟨reason | ⟨⟩, awake, events⟩
          · exact .interrupted unasked timing slept
          · have rest := ih next awake ((machine.after (due pace schedule now ticks)).after events)
            rw [issued_of_pass passed] at rest
            exact .sleeping unasked timing slept rest
        · obtain rfl := after_due passed
          obtain ⟨_, chosen⟩ := pass_chooses passed expired
          have awake := awake_of_issue chosen
          dsimp only
          have counted : ∀ after : Machine, (after.issued next).issued = schedule.issued + 1 :=
            fun _ => congrArg (· + 1) (issued_of_pass passed)
          rcases stepped : (machine.after (due pace schedule now ticks)).step with
            ⟨entry | - | fault, after⟩
          · have rest := ih (after.issued next) later after
            rw [counted] at rest
            exact .stepping unasked timing awake stepped (by rintro _ ⟨⟩) rest
          · have rest := ih (after.issued next) later after
            rw [counted] at rest
            exact .stepping unasked timing awake stepped (by rintro _ ⟨⟩) rest
          · exact .refused unasked timing awake stepped

/-- A realtime run is rounds, then the last ticks of a thread if there is one, and a silent tone. -/
theorem runRealtime_rounds (script : Script σ ε) (pace : Pace) (fuel : Nat) (world : σ)
    (machine : Machine) :
    ∃ events ticks final, machine.realtimeJournal script pace fuel world =
        events ++ List.replicate ticks .tick ∧
      (pace.background = false → ticks = 0) ∧
      Rounds script pace 0 (machine.enterRealtime pace) events
        (machine.runRealtime script.host pace fuel world).1 final ∧
      (machine.runRealtime script.host pace fuel world).2.2 =
        (final.tickMany ticks).leaveRealtime pace := by
  -- The loop starts with nothing issued, and a thread may tick once more behind it.
  rcases clock : script.clock world with ⟨start, later⟩
  have rounds := passes_rounds script pace fuel { start, last := start, next := start } later
    (machine.enterRealtime pace)
  simp only [runRealtime_eq, realtimeJournal, Script.host_clock, clock]
  refine ⟨_, _, _, rfl, ?_, rounds, rfl⟩
  intro single
  rw [script.host.meanwhile_single single]

/-- Rounds do to a machine what their events do. -/
theorem Rounds.after_events (rounds : Rounds script pace issued machine events exit final) :
    final = machine.after events := by
  -- A round spends its time, and then its sleep or its step happens.
  induction rounds with
  | unfinished | asked | expired | timeless | rested => rfl
  | interrupted => rw [after_append]
  | sleeping _ _ _ _ ih => rw [ih, after_append, after_append]
  | refused _ _ _ stepped => rw [after_append, after_cons, Event.apply, stepped, after_nil]
  | stepping _ _ _ stepped _ _ ih => rw [ih, after_append, after_cons, Event.apply, stepped]

/-! ### Steps, sleeps and requests to stop -/

/-- Keys and requests to stop go on beside the steps of a loop. -/
theorem aside_of_slept {seconds : Float} {world later : σ} {awake : Except ε Unit}
    (mannered : script.KeysOrStop)
    (slept : script.sleep seconds world machine = (awake, later, events)) :
    ∀ event ∈ events, event.isAside = true ∧ event.isTiming = false := by
  intro event listed
  -- Keys are no time, and neither is a request to stop.
  rcases mannered seconds world machine event (by rw [slept]; exact listed) with key | rfl
  · cases event with
    | press | release | releaseAll => exact ⟨rfl, rfl⟩
    | _ => cases key
  · exact ⟨rfl, rfl⟩

/-- Time goes on beside the steps of a loop. -/
theorem aside_of_timing {event : Event} (timing : event.isTiming = true) :
    event.isAside = true := by
  cases event with
  | tick | advance => rfl
  | _ => cases timing

/-- Time that is spent goes on beside the steps of a loop. -/
theorem aside_of_spent (timing : ∀ event ∈ events, event.isTiming = true) :
    ∀ event ∈ events, event.isAside = true := by
  intro event listed
  exact aside_of_timing (timing event listed)

/-- A step is not beside the steps of a loop. -/
theorem unstepping_of_aside {event : Event} (aside : event.isAside = true) :
    event.isStep = false := by
  -- Of all events a step is told apart by its kind.
  cases event with
  | step => cases aside
  | _ => rfl

/-- What goes on beside the steps of a loop ends no step, and counts no cycle. -/
theorem after_aside (aside : ∀ event ∈ events, event.isAside = true) (machine : Machine) :
    machine.results events = [] ∧ events.countP Event.isStep = 0 ∧
      (machine.after events).registers.cycleCount = machine.registers.cycleCount := by
  induction events generalizing machine with
  | nil => exact ⟨rfl, rfl, rfl⟩
  -- What the first event leaves is what the others find.
  | cons event rest ih =>
    obtain ⟨first, later⟩ := List.forall_mem_cons.mp aside
    obtain ⟨results, steps, cycles⟩ := ih later (event.apply machine)
    have unstepping := unstepping_of_aside first
    have other : event ≠ .step := by
      rintro rfl
      cases unstepping
    obtain ⟨_, _, _, _, _, left⟩ := apply_aside first machine
    refine ⟨?_, ?_, ?_⟩
    · rw [results_cons, results, Event.outcome?_of_ne_step machine other]
      rfl
    · rw [List.countP_cons_of_neg (by simp [unstepping]), steps]
    · rw [after_cons, cycles, left]

/-- A step asks for no stop, and withdraws none. -/
theorem Sound.step_stop (sound : machine.Sound config) :
    machine.step.2.stopRequested = machine.stopRequested := by
  -- However a step ends, it looks at the registers and the board.
  rcases stepped : machine.step with ⟨result, left⟩
  cases sound.steps stepped with
  | halted | fruitless | delivered | executed | failed => rfl

/-- Keys and time ask for no stop, and withdraw none. -/
theorem apply_stop {event : Event} (aside : event.isAside = true) (other : event ≠ .stop)
    (machine : Machine) : (event.apply machine).stopRequested = machine.stopRequested := by
  cases event with
  -- A press or a release may be refused, but only the keypad could change.
  | press number =>
    rw [apply_press]
    rfl
  | release number =>
    rw [apply_release]
    rfl
  | tick | advance | releaseAll => rfl
  | stop => exact absurd rfl other
  | _ => cases aside

/-- Without a request to stop there is none behind keys and time. -/
theorem after_stop (aside : ∀ event ∈ events, event.isAside = true)
    (unstopped : .stop ∉ events) (machine : Machine) :
    (machine.after events).stopRequested = machine.stopRequested := by
  -- One event after the other leaves it as it was.
  induction events generalizing machine with
  | nil => rfl
  | cons event rest ih =>
    obtain ⟨first, later⟩ := List.forall_mem_cons.mp aside
    obtain ⟨other, unstopped⟩ := not_or.mp (mt List.mem_cons.mpr unstopped)
    rw [after_cons, ih later unstopped, apply_stop first (Ne.symm other)]

/-- Time asks for no stop. -/
theorem stop_not_mem (timing : ∀ event ∈ events, event.isTiming = true) : .stop ∉ events := by
  intro listed
  cases timing .stop listed

/-! ### What all rounds keep to -/

/-- Steps meet machines that have not halted, and no step or time meets a request to stop. -/
def Mannerly (found : Machine) (event : Event) : Prop :=
  (event.isStep = true → found.registers.mode ≠ .halted) ∧
    (found.stopRequested = true → event.isStep = false ∧ event.isTiming = false)

/-- Time that is spent without a request to stop meets none. -/
theorem mannerly_spent (unasked : machine.stopRequested = false)
    (timing : ∀ event ∈ events, event.isTiming = true) : machine.Along Mannerly events := by
  -- Nothing is asked before the time, nor in it, and time is no step.
  induction events generalizing machine with
  | nil => trivial
  | cons event rest ih =>
    obtain ⟨first, later⟩ := List.forall_mem_cons.mp timing
    have aside := aside_of_timing first
    have still : (event.apply machine).stopRequested = false := by
      rw [apply_stop aside (by rintro rfl; cases first), unasked]
    refine ⟨⟨?_, ?_⟩, ih still later⟩
    · intro step
      rw [unstepping_of_aside aside] at step
      cases step
    · intro asked
      rw [unasked] at asked
      cases asked

/-- A sleep takes no step and no time. -/
theorem mannerly_slept
    (slept : ∀ event ∈ events, event.isAside = true ∧ event.isTiming = false) :
    machine.Along Mannerly events := by
  -- A sleep may have asked for the stop already, but it takes no step and spends no time.
  refine along_of_forall ?_
  intro event listed found
  obtain ⟨aside, timeless⟩ := slept event listed
  have unstepping := unstepping_of_aside aside
  refine ⟨?_, fun _ => ⟨unstepping, timeless⟩⟩
  intro step
  rw [unstepping] at step
  cases step

/-- A step that is issued behind such time is mannerly. -/
theorem mannerly_issued (unasked : machine.stopRequested = false)
    (timing : ∀ event ∈ events, event.isTiming = true)
    (awake : (machine.after events).registers.mode ≠ .halted) :
    (machine.after events).Mannerly .step := by
  -- No request came with the time before the step.
  refine ⟨fun _ => awake, ?_⟩
  intro asked
  rw [after_stop (aside_of_spent timing) (stop_not_mem timing), unasked] at asked
  cases asked

/-- All rounds are mannerly. -/
theorem Rounds.mannerly (mannered : script.KeysOrStop)
    (rounds : Rounds script pace issued machine events exit final) :
    machine.Along Mannerly events := by
  -- Each round keeps to it in its time, then in its sleep or in its step.
  induction rounds with
  | unfinished | asked => trivial
  | expired unasked timing | timeless unasked timing | rested unasked timing =>
    exact mannerly_spent unasked timing
  | interrupted unasked timing slept =>
    exact (along_append _ _).mpr
      ⟨mannerly_spent unasked timing, mannerly_slept (aside_of_slept mannered slept)⟩
  | sleeping unasked timing slept _ ih =>
    refine (along_append _ _).mpr ⟨mannerly_spent unasked timing, ?_⟩
    exact (along_append _ _).mpr ⟨mannerly_slept (aside_of_slept mannered slept), ih⟩
  | refused unasked timing awake =>
    exact (along_append _ _).mpr
      ⟨mannerly_spent unasked timing, mannerly_issued unasked timing awake, trivial⟩
  | stepping unasked timing awake stepped _ _ ih =>
    have left : Event.step.apply _ = _ := congrArg Prod.snd stepped
    exact (along_append _ _).mpr
      ⟨mannerly_spent unasked timing, mannerly_issued unasked timing awake, left ▸ ih⟩

/-- The events of rounds are steps, and what goes on beside them. -/
theorem Rounds.kinds (mannered : script.KeysOrStop)
    (rounds : Rounds script pace issued machine events exit final) :
    ∀ event ∈ events, event = .step ∨ event.isAside = true := by
  -- Time, keys and requests to stop go on beside the steps.
  have spends : ∀ {spent : List Event}, (∀ event ∈ spent, event.isTiming = true) →
      ∀ event ∈ spent, event = .step ∨ event.isAside = true := by
    intro spent timing event listed
    exact .inr (aside_of_spent timing event listed)
  induction rounds with
  | unfinished | asked => simp
  | expired _ timing | timeless _ timing | rested _ timing => exact spends timing
  | interrupted _ timing slept =>
    refine List.forall_mem_append.mpr ⟨spends timing, ?_⟩
    intro event listed
    exact .inr (aside_of_slept mannered slept event listed).1
  | sleeping _ timing slept _ ih =>
    refine List.forall_mem_append.mpr ⟨spends timing, List.forall_mem_append.mpr ⟨?_, ih⟩⟩
    intro event listed
    exact .inr (aside_of_slept mannered slept event listed).1
  | refused _ timing => exact List.forall_mem_append.mpr ⟨spends timing, by simp⟩
  | stepping _ timing _ _ _ _ ih =>
    exact List.forall_mem_append.mpr ⟨spends timing, List.forall_mem_cons.mpr ⟨.inl rfl, ih⟩⟩

/-- Behind a request to stop, what is mannerly takes no step and no time. -/
theorem stopped_of_mannerly (kinds : ∀ event ∈ events, event = .step ∨ event.isAside = true)
    (asked : machine.stopRequested = true) (mannerly : machine.Along Mannerly events) :
    ∀ event ∈ events, event.isStep = false ∧ event.isTiming = false := by
  induction events generalizing machine with
  | nil => simp
  | cons event rest ih =>
    obtain ⟨first, later⟩ := mannerly
    obtain ⟨kind, kinds⟩ := List.forall_mem_cons.mp kinds
    have quiet := first.2 asked
    refine List.forall_mem_cons.mpr ⟨quiet, ih kinds ?_ later⟩
    -- The request stands, because only keys and further requests come behind it.
    rcases kind with rfl | aside
    · cases quiet.1
    · by_cases stop : event = .stop
      · subst stop
        rfl
      · rw [apply_stop aside stop, asked]

/-- No rounds end with the refusal of a halted machine. -/
theorem Rounds.exit_ne_halted (sound : machine.Sound config)
    (rounds : Rounds script pace issued machine events exit final) :
    exit ≠ .faulted .halted := by
  induction rounds with
  | unfinished | asked | expired | rested | interrupted => rintro ⟨⟩
  | timeless _ _ other =>
    rintro ⟨⟩
    exact other rfl
  | sleeping _ _ _ _ ih => exact ih ((sound.after _).after _)
  | refused _ _ awake stepped =>
    rintro ⟨⟩
    -- A machine that has not halted refuses a step by a fault of its program.
    obtain ⟨_, _, other⟩ | ⟨_, _, other⟩ := (sound.after _).step_guest awake stepped <;> cases other
  | stepping _ _ _ stepped _ _ ih => exact ih ((sound.after _).stepped stepped)

/-- Rounds that return have counted their steps, of which all but the fruitless count a cycle. -/
theorem Rounds.counted (mannered : script.KeysOrStop) (sound : machine.Sound config)
    (rounds : Rounds script pace issued machine events exit final) {count : Nat}
    (returned : exit = .returned count) :
    count = issued + events.countP Event.isStep ∧
      final.registers.cycleCount + ((machine.results events).count .waiting : Nat) =
        machine.registers.cycleCount + (events.countP Event.isStep : Nat) := by
  -- Only a step is counted, and it is either a cycle or a wait.
  induction rounds with
  | unfinished | timeless | interrupted | refused => cases returned
  | asked =>
    obtain rfl := Exit.returned.inj returned
    exact ⟨rfl, rfl⟩
  | @expired issued machine spent _ timing | @rested issued machine spent _ timing =>
    obtain rfl := Exit.returned.inj returned
    obtain ⟨results, steps, cycles⟩ := after_aside (aside_of_spent timing) machine
    rw [results, steps, cycles]
    exact ⟨rfl, rfl⟩
  | @sleeping issued machine spent seconds world awake events more exit final _ timing slept _ ih =>
    obtain ⟨results, steps, cycles⟩ := after_aside (aside_of_spent timing) machine
    -- Neither the time that is spent nor the events of a sleep are steps.
    obtain ⟨results', steps', cycles'⟩ := after_aside
      (fun event listed => (aside_of_slept mannered slept event listed).1) (machine.after spent)
    obtain ⟨counted, grown⟩ := ih ((sound.after spent).after events) returned
    rw [results_append, results_append, results, results', List.nil_append, List.nil_append,
      List.countP_append, List.countP_append, steps, steps']
    rw [cycles', cycles] at grown
    refine ⟨?_, ?_⟩ <;> omega
  | @stepping issued machine spent result after more exit final _ timing _ stepped unrefused _ ih =>
    obtain ⟨results, steps, cycles⟩ := after_aside (aside_of_spent timing) machine
    have begun := sound.after spent
    obtain ⟨counted, grown⟩ := ih (begun.stepped stepped) returned
    have left : Event.step.apply (machine.after spent) = after := congrArg Prod.snd stepped
    rw [results_append, results, results_cons, left, List.countP_append, steps,
      List.countP_cons_of_pos rfl]
    simp only [Event.outcome?, stepped, Option.map_some, Option.toList_some, List.nil_append,
      List.cons_append]
    -- A completed step grows the cycle count, and a wait the number of waits.
    refine ⟨by omega, ?_⟩
    cases result with
    | completed entry =>
      have cycle := begun.step_completed stepped
      rw [List.count_cons_of_ne (by simp)]
      omega
    | waiting =>
      obtain ⟨rfl, -⟩ := begun.step_waiting stepped
      rw [List.count_cons_self]
      omega
    | refused fault => exact absurd rfl (unrefused fault)

/-- Rounds that return without limit or request to stop leave a machine at rest. -/
theorem Rounds.at_rest (mannered : script.KeysOrStop) (sound : machine.Sound config)
    (unlimited : pace.duration = none)
    (rounds : Rounds script pace issued machine events exit final) {count : Nat}
    (returned : exit = .returned count) (unasked : machine.stopRequested = false)
    (unstopped : .stop ∉ events) :
    final.registers.mode = .halted ∧ final.registers.timersRunning = false := by
  -- The loop returns for no other reason, as nobody asks it to and there is no limit.
  induction rounds with
  | unfinished | timeless | interrupted | refused => cases returned
  | asked asked =>
    rw [unasked] at asked
    cases asked
  | expired _ _ limited => exact absurd unlimited limited
  | rested _ _ halted idle => exact ⟨halted, idle⟩
  | @sleeping issued machine spent seconds world awake events more exit final _ timing slept _ ih =>
    obtain ⟨_, unstopped⟩ := not_or.mp (mt List.mem_append.mpr unstopped)
    obtain ⟨kept, unstopped⟩ := not_or.mp (mt List.mem_append.mpr unstopped)
    refine ih ((sound.after spent).after events) returned ?_ unstopped
    -- Neither time nor a sleep without a request makes the next round see one.
    rw [after_stop (fun event listed => (aside_of_slept mannered slept event listed).1) kept,
      after_stop (aside_of_spent timing) (stop_not_mem timing), unasked]
  | @stepping issued machine spent result after more exit final _ timing _ stepped _ _ ih =>
    obtain ⟨_, unstopped⟩ := not_or.mp (mt List.mem_append.mpr unstopped)
    obtain ⟨_, unstopped⟩ := not_or.mp (mt List.mem_cons.mpr unstopped)
    have begun := sound.after spent
    refine ih (begun.stepped stepped) returned ?_ unstopped
    have kept := begun.step_stop
    rw [stepped] at kept
    rw [kept, after_stop (aside_of_spent timing) (stop_not_mem timing), unasked]

/-! ### The contract -/

/-- What is promised of a realtime run, given its events, its exit and the machine it leaves. -/
structure RealtimeContract (pace : Pace) (machine : Machine) (events : List Event) (exit : Exit ε)
    (left : Machine) : Prop where
  /-- The run does to the machine what its events do, and then silences the tone. -/
  does : left = ((machine.enterRealtime pace).after events).leaveRealtime pace
  /-- No step is taken on a machine that has halted. -/
  awake : (machine.enterRealtime pace).Along
    (fun found event => event.isStep = true → found.registers.mode ≠ .halted) events
  /-- The run does not end with the refusal of a halted machine. -/
  unhalted : exit ≠ .faulted .halted
  /-- Behind a request to stop no step is taken, which could execute a word or deliver a key, and
  nothing ticks but a thread of the timers. -/
  stopped : ∀ before later, events = before ++ .stop :: later →
    ∀ event ∈ later, event.isStep = false ∧
      (event.isTiming = true → pace.background = true ∧ event = .tick)
  /-- A run that returns answers with the number of its steps, and the count of cycles has grown by
  that number without the polls that found no key. -/
  counted : ∀ count, exit = .returned count → count = events.countP Event.isStep ∧
    left.registers.cycleCount = machine.registers.cycleCount + count -
      (((machine.enterRealtime pace).results events).count .waiting : Nat)
  /-- A run that returns without a limit and without a request to stop leaves a machine that has
  halted, and both timers at zero. -/
  rested : ∀ count, exit = .returned count → pace.duration = none → .stop ∉ events →
    left.registers.mode = .halted ∧ left.registers.delayTimer = 0 ∧ left.registers.soundTimer = 0

/-- Entering a realtime run keeps the invariant. -/
theorem Sound.enterRealtime (sound : machine.Sound config) (pace : Pace) :
    (machine.enterRealtime pace).Sound config := by
  unfold Machine.enterRealtime
  split <;> exact (stable config).driver machine _ _ rfl sound

/-- No request to stop is older than the run. -/
theorem enterRealtime_unasked (machine : Machine) (pace : Pace) :
    (machine.enterRealtime pace).stopRequested = false := by
  unfold enterRealtime
  split <;> rfl

/-- Entering a realtime run leaves the register file alone. -/
theorem enterRealtime_registers (machine : Machine) (pace : Pace) :
    (machine.enterRealtime pace).registers = machine.registers := by
  unfold enterRealtime
  split <;> rfl

/-- Timers that do not run are at zero. -/
theorem Sound.idle (sound : machine.Sound config)
    (idle : machine.registers.timersRunning = false) :
    machine.registers.delayTimer = 0 ∧ machine.registers.soundTimer = 0 := by
  -- No timer is below zero, and neither is above it.
  obtain ⟨delay, tone⟩ := (Bool.or_eq_false_iff).mp idle
  have delayed := of_decide_eq_false delay
  have sounding := of_decide_eq_false tone
  obtain ⟨low, -⟩ := sound.registers.delay
  obtain ⟨low', -⟩ := sound.registers.sound
  constructor <;> omega

/-- A request to stop comes before the last ticks of a thread. -/
theorem stop_before_late {before later : List Event} {ticks : Nat}
    (split : events ++ List.replicate ticks .tick = before ++ .stop :: later) :
    ∃ more, events = before ++ .stop :: more ∧ later = more ++ List.replicate ticks .tick := by
  rcases List.append_eq_append_iff.mp split with ⟨rest, -, late⟩ | ⟨rest, rfl, late⟩
  · -- The request is none of the ticks.
    have listed : Event.stop ∈ List.replicate ticks .tick := by simp [late]
    cases List.eq_of_mem_replicate listed
  · cases rest with
    | nil =>
      rw [List.nil_append] at late
      have listed : Event.stop ∈ List.replicate ticks .tick := late ▸ List.mem_cons_self
      cases List.eq_of_mem_replicate listed
    | cons event more =>
      obtain ⟨rfl, rfl⟩ := List.cons.inj late
      exact ⟨more, rfl, rfl⟩

/--
A realtime run keeps to its exit contract, whatever its clock says and however long it may run, if
its host's sleeps use the keypad and ask to stop, and do nothing else.
-/
theorem realtime_exit_contract (reachable : machine.Reachable config)
    (mannered : script.KeysOrStop) (pace : Pace) (fuel : Nat) (world : σ) :
    machine.RealtimeContract pace (machine.realtimeJournal script pace fuel world)
      (machine.runRealtime script.host pace fuel world).1
      (machine.runRealtime script.host pace fuel world).2.2 := by
  obtain ⟨events, ticks, final, journal, single, rounds, left⟩ :=
    machine.runRealtime_rounds script pace fuel world
  have sound := reachable.sound.enterRealtime pace
  have unasked := machine.enterRealtime_unasked pace
  have mannerly := rounds.mannerly mannered
  have last := rounds.after_events
  have late := timing_ticks ticks
  rw [left, journal]
  refine ⟨?_, ?_, rounds.exit_ne_halted sound, ?_, ?_, ?_⟩
  · rw [after_append, after_ticks, last]
  · -- The last ticks of a thread are no steps.
    refine (along_append _ _).mpr ⟨mannerly.mono fun _ _ => And.left, ?_⟩
    refine along_of_forall fun event listed found step => ?_
    rw [unstepping_of_aside (aside_of_spent late event listed)] at step
    cases step
  · intro before later split event listed
    obtain ⟨more, rfl, rfl⟩ := stop_before_late split
    rcases List.mem_append.mp listed with looped | ticking
    · -- In the loop itself there is neither a step nor time behind the request.
      rw [along_append] at mannerly
      obtain ⟨-, kinds⟩ := List.forall_mem_append.mp (rounds.kinds mannered)
      obtain ⟨unstepping, timeless⟩ := stopped_of_mannerly (List.forall_mem_cons.mp kinds).2 rfl
        mannerly.2.2 event looped
      exact ⟨unstepping, fun timing => absurd timing (by simp [timeless])⟩
    · -- Behind the loop a thread may tick, if there is one.
      obtain ⟨some, rfl⟩ := List.mem_replicate.mp ticking
      refine ⟨rfl, fun _ => ⟨?_, rfl⟩⟩
      cases background : pace.background with
      | true => rfl
      | false => exact absurd (single background) some
  · intro count returned
    obtain ⟨counted, grown⟩ := rounds.counted mannered sound returned
    rw [machine.enterRealtime_registers pace] at grown
    obtain ⟨results, steps, cycles⟩ := after_aside (aside_of_spent late) final
    rw [List.countP_append, steps, results_append, ← last, results, List.append_nil]
    refine ⟨by omega, ?_⟩
    -- Leaving the loop silences the tone and leaves the register file alone.
    show (final.tickMany ticks).registers.cycleCount = _
    rw [← after_ticks, cycles]
    omega
  · intro count returned unlimited unstopped
    have unstopped : .stop ∉ events := fun listed => unstopped (List.mem_append_left _ listed)
    obtain ⟨halted, idle⟩ := rounds.at_rest mannered sound unlimited returned unasked unstopped
    have resting : final.Sound config := last ▸ sound.after _
    obtain ⟨delay, tone⟩ := resting.idle idle
    -- A thread that still ticks finds both timers at zero.
    have still : (final.tickMany ticks).registers = final.registers :=
      final.timers.tickMany_idle delay tone ticks
    show (final.tickMany ticks).registers.mode = _ ∧
      (final.tickMany ticks).registers.delayTimer = 0 ∧
        (final.tickMany ticks).registers.soundTimer = 0
    rw [still]
    exact ⟨halted, delay, tone⟩

/-- A standard machine about to wait for a key, and then to loop in place. -/
def answering : Machine :=
  Machine.standard.after [.loadImage [0xF1, 0x0A, 0x12, 0x02]]

/-- A host whose clock only sleeping moves, and who asks to stop between two uses of a key. -/
def visitor : Script Float Empty where
  clock time := (time, time)
  sleep seconds time _ := (.ok (), time + seconds, [.press 7, .stop, .release 7])

/-- A host whose clock only sleeping moves, and who taps a key and never asks to stop. -/
def knocker : Script Float Empty where
  clock time := (time, time)
  sleep seconds time _ := (.ok (), time + seconds, [.press 7, .release 7])

/-- A visitor stops the run at once; a knocker's key is delivered, and the run ends by itself. -/
theorem realtime_exit_contract_answering :
    answering.RealtimeContract {} (answering.realtimeJournal visitor {} 9 0.0)
        (answering.runRealtime visitor.host {} 9 0.0).1
        (answering.runRealtime visitor.host {} 9 0.0).2.2 ∧
      (answering.realtimeJournal knocker {} 9 0.0).countP Event.isStep = 3 ∧
      (answering.runRealtime knocker.host {} 9 0.0).2.2.registers.mode = .halted := by
  have reachable : answering.Reachable .standard := Reachable.standard.after _
  have visits : visitor.KeysOrStop := fun _ _ _ => by simp [visitor, Event.isKey]
  have knocks : knocker.KeysOrStop := fun _ _ _ => by simp [knocker, Event.isKey]
  have contract := realtime_exit_contract reachable knocks {} 9 0.0
  -- No key of the script is a request to stop.
  have plays : (answering.realtimeJournal knocker {} 9 0.0).all Event.isPlay = true := by
    decide +kernel
  have unstopped : .stop ∉ answering.realtimeJournal knocker {} 9 0.0 := by
    intro listed
    cases List.all_eq_true.mp plays .stop listed
  have count : (answering.runRealtime knocker.host {} 9 0.0).1.issued? = some 3 := by
    decide +kernel
  have returned : (answering.runRealtime knocker.host {} 9 0.0).1 = .returned 3 := by
    cases exit : (answering.runRealtime knocker.host {} 9 0.0).1 with
    | returned issued =>
      rw [exit] at count
      exact congrArg Exit.returned (Option.some.inj count)
    | faulted | interrupted | unfinished =>
      rw [exit] at count
      cases count
  exact ⟨realtime_exit_contract reachable visits {} 9 0.0,
    (contract.counted 3 returned).1.symm, (contract.rested 3 returned rfl unstopped).1⟩

end Machine

end Chip8
