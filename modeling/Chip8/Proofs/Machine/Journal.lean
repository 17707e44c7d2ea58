import Chip8.Proofs.Machine.Sequence

/-!
The events of a realtime run, in the order in which they happen.

A host whose sleeps are sequences of events makes of a realtime run one sequence of events: elapsed
seconds that are turned into ticks, what is done during sleeps, and steps.
-/

namespace Chip8

/-- The number of instructions that were issued, if a run ended by itself. -/
def Exit.issued? {ε : Type} : Exit ε → Option Nat
  | .returned issued => some issued
  | .faulted _ | .interrupted _ | .unfinished => none

/-- A host that tells which events happen during its sleeps. -/
structure Script (σ ε : Type) where
  clock : σ → Float × σ
  ticks : σ → Nat × σ := fun world => (0, world)
  sleep : Float → σ → Machine → Except ε Unit × σ × List Event

/-- The host that does what a script tells. -/
def Script.host {σ ε : Type} (script : Script σ ε) : Host σ ε where
  clock := script.clock
  ticks := script.ticks
  sleep seconds world machine :=
    let (awake, world, events) := script.sleep seconds world machine
    (awake, world, machine.after events)

/-- The host of a script reads its clock. -/
@[simp]
theorem Script.host_clock {σ ε : Type} (script : Script σ ε) : script.host.clock = script.clock :=
  rfl

/-- In a sleep of the host the events of the script happen. -/
@[simp]
theorem Script.host_sleep {σ ε : Type} (script : Script σ ε) (seconds : Float) (world : σ)
    (machine : Machine) :
    script.host.sleep seconds world machine =
      ((script.sleep seconds world machine).1, (script.sleep seconds world machine).2.1,
        machine.after (script.sleep seconds world machine).2.2) :=
  rfl

/-- The sleeps of a script use the keypad and nothing else. -/
def Script.OnlyKeys {σ ε : Type} (script : Script σ ε) : Prop :=
  ∀ seconds world machine, ∀ event ∈ (script.sleep seconds world machine).2.2, event.isKey = true

namespace Machine

/-- What a pass lets the timers catch up with: ticks of a thread, or time by the clock. -/
def due (pace : Pace) (schedule : Schedule) (now : Float) (ticks : Nat) : List Event :=
  List.replicate ticks .tick ++
    if isOver pace schedule now || pace.background then [] else [.advance (now - schedule.last)]

/-- The events of at most some number of passes of the loop. -/
def journal {σ ε : Type} (script : Script σ ε) (pace : Pace) :
    Nat → Schedule → σ → Machine → List Event
  | 0, _, _, _ => []
  | fuel + 1, schedule, world, machine =>
    if machine.stopRequested then []
    else
      let (now, ticks, world) := script.host.look pace world
      due pace schedule now ticks ++
        match (machine.tickMany ticks).pass pace schedule now with
        | (.error _, _, _) | (.ok .leave, _, _) => []
        | (.ok (.sleep seconds), schedule, machine) =>
          match script.sleep seconds world machine with
          | (.error _, _, events) => events
          | (.ok (), world, events) =>
            events ++ journal script pace fuel schedule world (machine.after events)
        | (.ok .issue, schedule, machine) =>
          .step ::
            match machine.step with
            | (.refused _, _) => []
            | (_, machine) => journal script pace fuel (machine.issued schedule) world machine

/-- The events of a realtime run, with the last ticks of a thread behind those of the loop. -/
def realtimeJournal {σ ε : Type} (script : Script σ ε) (pace : Pace) (fuel : Nat) (world : σ)
    (machine : Machine) : List Event :=
  let (start, world) := script.clock world
  let schedule : Schedule := { start, last := start, next := start }
  let entered := machine.enterRealtime pace
  let (_, left, _) := passes script.host pace fuel schedule world entered
  journal script pace fuel schedule world entered ++
    List.replicate (script.host.meanwhile pace left).1 .tick

/--
A realtime loop in which some events happen, up to its exit.

The loop is at a schedule, a world and a machine, and leaves a world and a machine.
-/
inductive Loops {σ ε : Type} (script : Script σ ε) (pace : Pace) :
    Schedule → σ → Machine → List Event → Exit ε → σ → Machine → Prop where
  /-- The passes that are allowed for are used up. -/
  | unfinished {schedule world machine} :
    Loops script pace schedule world machine [] .unfinished world machine
  /-- The host has asked the loop to stop. -/
  | stopped {schedule world machine} (asked : machine.stopRequested = true) :
    Loops script pace schedule world machine [] (.returned schedule.issued) world machine
  /-- The time that is due is no number of ticks. -/
  | timeless {schedule world machine now ticks later fault next left}
    (look : script.host.look pace world = (now, ticks, later))
    (passed : (machine.tickMany ticks).pass pace schedule now = (.error fault, next, left)) :
    Loops script pace schedule world machine (due pace schedule now ticks) (.faulted fault) later
      left
  /-- The run is over, or the machine is at rest. -/
  | ended {schedule world machine now ticks later next left}
    (look : script.host.look pace world = (now, ticks, later))
    (passed : (machine.tickMany ticks).pass pace schedule now = (.ok .leave, next, left)) :
    Loops script pace schedule world machine (due pace schedule now ticks)
      (.returned next.issued) later left
  /-- A sleep does not return. -/
  | interrupted {schedule world machine now ticks later seconds next left reason awake events}
    (look : script.host.look pace world = (now, ticks, later))
    (passed : (machine.tickMany ticks).pass pace schedule now = (.ok (.sleep seconds), next, left))
    (slept : script.sleep seconds later left = (.error reason, awake, events)) :
    Loops script pace schedule world machine (due pace schedule now ticks ++ events)
      (.interrupted reason) awake (left.after events)
  /-- The loop goes on after a sleep. -/
  | sleeping {schedule world machine now ticks later seconds next left awake events more exit last
      final}
    (look : script.host.look pace world = (now, ticks, later))
    (passed : (machine.tickMany ticks).pass pace schedule now = (.ok (.sleep seconds), next, left))
    (slept : script.sleep seconds later left = (.ok (), awake, events))
    (rest : Loops script pace next awake (left.after events) more exit last final) :
    Loops script pace schedule world machine (due pace schedule now ticks ++ (events ++ more)) exit
      last final
  /-- A step is refused. -/
  | refused {schedule world machine now ticks later next left fault after}
    (look : script.host.look pace world = (now, ticks, later))
    (passed : (machine.tickMany ticks).pass pace schedule now = (.ok .issue, next, left))
    (refused : left.step = (.refused fault, after)) :
    Loops script pace schedule world machine (due pace schedule now ticks ++ [.step])
      (.faulted fault) later after
  /-- The loop goes on after a step. -/
  | stepping {schedule world machine now ticks later next left result after more exit last final}
    (look : script.host.look pace world = (now, ticks, later))
    (passed : (machine.tickMany ticks).pass pace schedule now = (.ok .issue, next, left))
    (stepped : left.step = (result, after))
    (rest : Loops script pace (after.issued next) later after more exit last final) :
    Loops script pace schedule world machine (due pace schedule now ticks ++ .step :: more) exit
      last final

variable {σ ε : Type} {script : Script σ ε} {pace : Pace} {schedule : Schedule} {world last : σ}
  {machine final : Machine} {events : List Event} {exit : Exit ε}

/-- The passes of the loop are a loop in which the events of the journal happen. -/
theorem passes_loops (script : Script σ ε) (pace : Pace) (fuel : Nat) (schedule : Schedule)
    (world : σ) (machine : Machine) :
    Loops script pace schedule world machine (journal script pace fuel schedule world machine)
      (passes script.host pace fuel schedule world machine).1
      (passes script.host pace fuel schedule world machine).2.1
      (passes script.host pace fuel schedule world machine).2.2 := by
  -- Every branch of a pass is one of the cases.
  induction fuel generalizing schedule world machine with
  | zero => exact .unfinished
  | succ fuel ih =>
    rcases look : script.host.look pace world with ⟨now, ticks, later⟩
    simp only [passes_succ, journal, Script.host_sleep, look]
    split
    · rename_i asked
      exact .stopped asked
    · rcases passed : (machine.tickMany ticks).pass pace schedule now with
        ⟨fault | - | seconds | -, next, left⟩
      · rw [List.append_nil]
        exact .timeless look passed
      · rw [List.append_nil]
        exact .ended look passed
      · dsimp only
        rcases slept : script.sleep seconds later left with ⟨reason | ⟨⟩, awake, events⟩
        · exact .interrupted look passed slept
        · exact .sleeping look passed slept (ih next awake _)
      · dsimp only
        rcases stepped : left.step with ⟨entry | - | fault, after⟩
        · exact .stepping look passed stepped (ih _ later after)
        · exact .stepping look passed stepped (ih _ later after)
        · exact .refused look passed stepped

/-- A pass lets the timers catch up with what is due. -/
theorem after_due {now : Float} {ticks : Nat} {verdict : Except Fault Move} {next : Schedule}
    {left : Machine}
    (passed : (machine.tickMany ticks).pass pace schedule now = (verdict, next, left)) :
    machine.after (due pace schedule now ticks) = left := by
  rw [due, after_append, after_ticks,
    ← show ((machine.tickMany ticks).pass pace schedule now).2.2 = left by rw [passed]]
  unfold pass
  cases ended : isOver pace schedule now with
  | true => rfl
  | false =>
    cases pace.background with
    | true => rfl
    | false =>
      -- Whether the time is refused or turned into ticks, the driver has taken note of it.
      simp only [Bool.false_eq_true, if_false, Bool.or_false]
      split <;> rfl

/-- A pass comes to a move behind the end of a run, or chooses it for the machine that it leaves. -/
theorem pass_ok {now : Float} {move : Move} {next : Schedule} {left : Machine}
    (passed : machine.pass pace schedule now = (.ok move, next, left)) :
    (isOver pace schedule now = true ∧ move = .leave) ∨
    (isOver pace schedule now = false ∧ next = { schedule with last := now } ∧
      left.chooseMove pace next now = move) := by
  unfold pass at passed
  split at passed
  · rename_i late
    exact .inl ⟨late, (Except.ok.inj (Prod.mk.inj passed).1).symm⟩
  · rename_i early
    dsimp only at passed
    -- Time that is no number of ticks leads to no move.
    split at passed
    · cases (Prod.mk.inj passed).1
    · obtain ⟨chosen, last⟩ := Prod.mk.inj passed
      obtain ⟨rfl, rfl⟩ := Prod.mk.inj last
      exact .inr ⟨Bool.eq_false_iff.mpr early, rfl, Except.ok.inj chosen⟩

/-- A step is issued for a machine that has not halted. -/
theorem awake_of_issue {now : Float}
    (chosen : machine.chooseMove pace schedule now = .issue) :
    machine.registers.mode ≠ .halted := by
  -- A halted machine sleeps, or its loop is left.
  intro mode
  have halted : machine.registers.halted = true := by simp [Registers.halted, mode]
  unfold chooseMove at chosen
  rw [if_pos halted] at chosen
  split at chosen <;> cases chosen

/-- A machine that is awake sleeps if the next instruction is not due, and issues it if it is. -/
theorem move_of_awake (pace : Pace) (schedule : Schedule) (now : Float)
    (awake : machine.registers.mode ≠ .halted) :
    machine.chooseMove pace schedule now =
      if schedule.next ≤ now then .issue
      else .sleep (shorter (schedule.next - now) machine.timers.period) := by
  unfold chooseMove
  rw [if_neg (by simpa [Registers.halted] using awake)]

/-- A pass issues nothing by itself. -/
theorem issued_of_pass {now : Float} {verdict : Except Fault Move} {next : Schedule}
    {left : Machine} (passed : machine.pass pace schedule now = (verdict, next, left)) :
    next.issued = schedule.issued := by
  -- A pass notes the time and nothing else.
  rw [← show (machine.pass pace schedule now).2.1 = next by rw [passed]]
  unfold pass
  split
  · rfl
  · dsimp only
    split <;> rfl

/-- A loop does to a machine what its events do. -/
theorem Loops.after_events
    (loops : Loops script pace schedule world machine events exit last final) :
    final = machine.after events := by
  -- Each pass does what is due, and then sleeps or steps before the next one.
  induction loops with
  | unfinished | stopped => rfl
  | timeless _ passed | ended _ passed => rw [after_due passed]
  | interrupted _ passed => rw [after_append, after_due passed]
  | sleeping _ passed _ _ ih => rw [ih, after_append, after_append, after_due passed]
  | refused _ passed refused =>
    rw [after_append, after_due passed, after_cons, Event.apply, refused, after_nil]
  | stepping _ passed stepped _ ih =>
    rw [ih, after_append, after_due passed, after_cons, Event.apply, stepped]

/--
A realtime run is a loop in which the events of its journal happen, and then a silent tone.

The first instruction is due at its start, and its timers have no thread that could tick behind the
loop.
-/
theorem runRealtime_loops (script : Script σ ε) (single : pace.background = false) (fuel : Nat)
    (world : σ) (machine : Machine) :
    ∃ schedule final, schedule.issued = 0 ∧ schedule.next = (script.clock world).1 ∧
      Loops script pace schedule (script.clock world).2 (machine.enterRealtime pace)
        (machine.realtimeJournal script pace fuel world)
        (machine.runRealtime script.host pace fuel world).1
        (machine.runRealtime script.host pace fuel world).2.1 final ∧
      (machine.runRealtime script.host pace fuel world).2.2 = final.leaveRealtime pace := by
  -- The first clock reading is the start of the schedule.
  rcases clock : script.clock world with ⟨start, later⟩
  simp only [runRealtime_eq, realtimeJournal, Script.host_clock, clock,
    script.host.meanwhile_single single, tickMany_zero, List.replicate_zero, List.append_nil]
  exact ⟨_, _, rfl, rfl, passes_loops script pace fuel _ later _, rfl⟩

/-- Ticks are time. -/
theorem timing_ticks (ticks : Nat) :
    ∀ event ∈ List.replicate ticks Event.tick, event.isTiming = true := by
  intro event listed
  rw [List.eq_of_mem_replicate listed]
  rfl

/-- What is due is time. -/
theorem timing_due (pace : Pace) (schedule : Schedule) (now : Float) (ticks : Nat) :
    ∀ event ∈ due pace schedule now ticks, event.isTiming = true := by
  refine List.forall_mem_append.mpr ⟨timing_ticks ticks, ?_⟩
  split <;> simp [Event.isTiming]

/-- No step is due. -/
theorem countP_due (pace : Pace) (schedule : Schedule) (now : Float) (ticks : Nat) :
    (due pace schedule now ticks).countP Event.isStep = 0 := by
  refine List.countP_eq_zero.mpr fun event listed step => ?_
  rw [Event.eq_step step] at listed
  cases timing_due pace schedule now ticks .step listed

/-- A sleep that uses nothing but the keypad takes no step. -/
theorem countP_sleep (only : script.OnlyKeys) {seconds : Float} {awake : Except ε Unit}
    (slept : script.sleep seconds world machine = (awake, last, events)) :
    events.countP Event.isStep = 0 := by
  -- A step is no use of the keypad.
  refine List.countP_eq_zero.mpr fun event listed step => ?_
  have key := only seconds world machine event (by rw [slept]; exact listed)
  cases event <;> simp [Event.isKey, Event.isStep] at key step

/-- A loop that returns has issued the steps among its events, if sleeps take none. -/
theorem Loops.issued (only : script.OnlyKeys)
    (loops : Loops script pace schedule world machine events exit last final) {count : Nat}
    (returned : exit = .returned count) :
    count = schedule.issued + events.countP Event.isStep := by
  -- Every step of the loop is counted by the schedule.
  induction loops with
  | unfinished | timeless | interrupted | refused => cases returned
  | stopped => exact (Exit.returned.inj returned).symm
  | ended _ passed =>
    rw [countP_due, ← issued_of_pass passed]
    exact (Exit.returned.inj returned).symm
  | sleeping _ passed slept _ ih =>
    have quiet := countP_sleep only slept
    rw [ih returned, issued_of_pass passed, List.countP_append, List.countP_append, countP_due,
      quiet, Nat.zero_add, Nat.zero_add]
  | stepping _ passed _ _ ih =>
    rw [ih returned, List.countP_append, countP_due, List.countP_cons, ← issued_of_pass passed]
    simp only [Machine.issued, Event.isStep, if_true]
    omega

end Machine

end Chip8
