import Chip8.Proofs.Machine.Journal
import Chip8.Proofs.Time.Seconds

/-!
The time that a realtime run gives to the timers.

Each pass of the loop looks at the clock, and gives the timers the time since the look before.
Only the look that finds the duration over gives them nothing.
-/

namespace Chip8

/-- One look at the clock: the reading, and the time that was given to the timers. -/
structure Glance where
  now : Float
  given : Option Float
  deriving DecidableEq

/-- The machine after the time of a glance. -/
def Glance.advance (glance : Glance) (machine : Machine) : Machine :=
  match glance.given with
  | some elapsed => (machine.advanceTimers elapsed).2
  | none => machine

/-- The clock during a realtime run. -/
structure Timeline where
  start : Float
  glances : List Glance
  deriving DecidableEq

namespace Timeline

/-- All readings of the clock, in order. -/
def readings (timeline : Timeline) : List Float :=
  timeline.start :: timeline.glances.map Glance.now

/-- All time that was given to the timers, added up. -/
def total (timeline : Timeline) : Float :=
  (timeline.glances.filterMap Glance.given).foldl (· + ·) 0.0

/-- Whether a reading finds the run over by its duration. -/
def isOver (timeline : Timeline) (pace : Pace) (now : Float) : Bool :=
  Machine.isOver pace ⟨timeline.start, timeline.start, timeline.start, 0⟩ now

/-- The readings behind the first, up to one that finds the run over. -/
def inTime (timeline : Timeline) (pace : Pace) : List Float :=
  (timeline.glances.map Glance.now).takeWhile fun now => !timeline.isOver pace now

end Timeline

namespace Machine

/-! ### Watched runs -/

/-- A look at the clock in one pass of the loop. -/
def glance (pace : Pace) (schedule : Schedule) (now : Float) : Glance :=
  ⟨now, if isOver pace schedule now || pace.background then none else some (now - schedule.last)⟩

/-- The passes of the loop, and all looks at the clock. -/
def watchPasses {σ ε : Type} (host : Host σ ε) (pace : Pace) :
    Nat → Schedule → σ → Machine → (Exit ε × σ × Machine) × List Glance
  | 0, _, world, machine => ((.unfinished, world, machine), [])
  | fuel + 1, schedule, world, machine =>
    if machine.stopRequested then ((.returned schedule.issued, world, machine), [])
    else
      let (now, ticks, world) := host.look pace world
      let look := glance pace schedule now
      let ticked := machine.tickMany ticks
      -- The machine goes on from what was given, and the pass only says how.
      let moved := look.advance ticked
      match ticked.pass pace schedule now with
      | (.error fault, _, _) => ((.faulted fault, world, moved), [look])
      | (.ok .leave, schedule, _) => ((.returned schedule.issued, world, moved), [look])
      | (.ok (.sleep seconds), schedule, _) =>
        match host.sleep seconds world moved with
        | (.error reason, world, machine) => ((.interrupted reason, world, machine), [look])
        | (.ok (), world, machine) =>
          let (result, later) := watchPasses host pace fuel schedule world machine
          (result, look :: later)
      | (.ok .issue, schedule, _) =>
        match moved.step with
        | (.refused fault, machine) => ((.faulted fault, world, machine), [look])
        | (_, machine) =>
          let (result, later) := watchPasses host pace fuel (machine.issued schedule) world machine
          (result, look :: later)

/-- A realtime run, and its clock. -/
def watchRealtime {σ ε : Type} (host : Host σ ε) (pace : Pace) (fuel : Nat) (world : σ)
    (machine : Machine) : (Exit ε × σ × Machine) × Timeline :=
  let (start, world) := host.clock world
  let schedule : Schedule := { start, last := start, next := start }
  let ((exit, world, machine), glances) :=
    watchPasses host pace fuel schedule world (machine.enterRealtime pace)
  let (ticks, world) := host.meanwhile pace world
  ((exit, world, (machine.tickMany ticks).leaveRealtime pace), { start, glances })

/-- The clock during a realtime run. -/
def timeline {σ ε : Type} (host : Host σ ε) (pace : Pace) (fuel : Nat) (world : σ)
    (machine : Machine) : Timeline :=
  (machine.watchRealtime host pace fuel world).2

variable {σ ε : Type} {host : Host σ ε} {pace : Pace} {schedule next : Schedule} {world : σ}
  {machine left : Machine} {now : Float}

/-- A pass advances the timers by what is given at its look at the clock. -/
theorem pass_given (machine : Machine) (pace : Pace) (schedule : Schedule) (now : Float) :
    (machine.pass pace schedule now).2.2 = (glance pace schedule now).advance machine := by
  -- The timers are advanced by the clock, unless the run is over or they have a thread.
  unfold pass glance Glance.advance
  cases isOver pace schedule now with
  | true => rfl
  | false =>
    cases pace.background with
    | true => rfl
    | false =>
      simp only [Bool.false_eq_true, if_false, Bool.or_false]
      split <;> rfl

/-- Watching changes nothing in the passes of the loop. -/
theorem watchPasses_fst (host : Host σ ε) (pace : Pace) (fuel : Nat) (schedule : Schedule)
    (world : σ) (machine : Machine) :
    (watchPasses host pace fuel schedule world machine).1 =
      passes host pace fuel schedule world machine := by
  induction fuel generalizing schedule world machine with
  | zero => rfl
  | succ fuel ih =>
    rcases looked : host.look pace world with ⟨now, ticks, later⟩
    have given := pass_given (machine.tickMany ticks) pace schedule now
    simp only [watchPasses, passes_succ, looked, ← given]
    split
    · rfl
    · -- What is left of the pass is told apart as in the loop itself.
      rcases (machine.tickMany ticks).pass pace schedule now with
        ⟨fault | - | seconds | -, next, left⟩
      · rfl
      · rfl
      · dsimp only
        rcases host.sleep seconds later left with ⟨reason | ⟨⟩, awake, after⟩
        · rfl
        · exact ih next awake after
      · dsimp only
        rcases left.step with ⟨entry | - | fault, after⟩
        · exact ih (after.issued next) later after
        · exact ih (after.issued next) later after
        · rfl

/-- Watching changes nothing in a realtime run. -/
theorem watchRealtime_fst (host : Host σ ε) (pace : Pace) (fuel : Nat) (world : σ)
    (machine : Machine) :
    (machine.watchRealtime host pace fuel world).1 =
      machine.runRealtime host pace fuel world := by
  simp only [watchRealtime, runRealtime_eq, ← watchPasses_fst]

/-! ### Consecutive readings -/

/-- Glances of which each gives the time since the one before, until one finds the run over. -/
inductive Chained (isLate : Float → Bool) : Float → List Glance → Prop where
  | done {last : Float} : Chained isLate last []
  | late {last now : Float} (ended : isLate now = true) : Chained isLate last [⟨now, none⟩]
  | given {last now : Float} {rest : List Glance} (early : isLate now = false)
      (more : Chained isLate now rest) : Chained isLate last (⟨now, some (now - last)⟩ :: rest)

/-- A pass that lets the loop go on is in time, and notes the reading. -/
theorem pass_goes_on {move : Move}
    (passed : machine.pass pace schedule now = (.ok move, next, left)) (goes : move ≠ .leave) :
    isOver pace schedule now = false ∧ next = { schedule with last := now } := by
  rcases pass_ok passed with ⟨-, leaves⟩ | ⟨early, noted, -⟩
  · exact absurd leaves goes
  · exact ⟨early, noted⟩

/-- A single look is at a run that is over, or gives the time since the one before. -/
theorem chained_glance (single : pace.background = false) (schedule : Schedule) (now : Float) :
    Chained (isOver pace schedule) schedule.last [glance pace schedule now] := by
  -- Without a thread a glance gives time unless it is late.
  unfold glance
  rw [single, Bool.or_false]
  cases ended : isOver pace schedule now with
  | true => exact .late ended
  | false => exact .given ended .done

/-- A look that lets the loop go on gives the time since the one before. -/
theorem chained_cons {move : Move} {later : List Glance} (single : pace.background = false)
    (passed : machine.pass pace schedule now = (.ok move, next, left)) (goes : move ≠ .leave)
    (rest : Chained (isOver pace next) next.last later) :
    Chained (isOver pace schedule) schedule.last (glance pace schedule now :: later) := by
  -- A loop that goes on was not late, and notes the reading that comes next in the chain.
  obtain ⟨early, rfl⟩ := pass_goes_on passed goes
  unfold glance
  rw [single, early]
  exact .given early rest

/-- The passes of the loop give the timers all time but that before a look at a run that is over. -/
theorem watchPasses_chained (single : pace.background = false) (host : Host σ ε) (fuel : Nat)
    (schedule : Schedule) (world : σ) (machine : Machine) :
    Chained (isOver pace schedule) schedule.last
      (watchPasses host pace fuel schedule world machine).2 := by
  -- Each pass adds its look in front of those of the passes behind it.
  induction fuel generalizing schedule world machine with
  | zero => exact .done
  | succ fuel ih =>
    rcases looked : host.look pace world with ⟨now, ticks, later⟩
    have look := chained_glance single schedule now
    simp only [watchPasses, looked]
    split
    · -- A run that is asked to stop does not look at the clock.
      exact .done
    · rcases passed : (machine.tickMany ticks).pass pace schedule now with
        ⟨fault | - | seconds | -, next, left⟩
      · exact look
      · exact look
      · dsimp only
        rcases host.sleep seconds later _ with ⟨reason | ⟨⟩, awake, after⟩
        · exact look
        · exact chained_cons single passed (by rintro ⟨⟩) (ih next awake after)
      · dsimp only
        rcases Machine.step _ with ⟨entry | - | fault, after⟩
        · exact chained_cons single passed (by rintro ⟨⟩) (ih (after.issued next) later after)
        · exact chained_cons single passed (by rintro ⟨⟩) (ih (after.issued next) later after)
        · exact look

/-- All readings are in time, but for a last one that finds the run over. -/
theorem Chained.inTime {isLate : Float → Bool} {last : Float} {glances : List Glance}
    (chained : Chained isLate last glances) :
    glances.map Glance.now = (glances.map Glance.now).takeWhile (fun now => !isLate now) ∨
      ∃ now, isLate now = true ∧ glances.map Glance.now =
        (glances.map Glance.now).takeWhile (fun now => !isLate now) ++ [now] := by
  -- A late reading ends the chain, so all readings before it are in time.
  induction chained with
  | done => exact .inl rfl
  | @late last now ended =>
    refine .inr ⟨now, ended, ?_⟩
    rw [List.map_singleton, List.takeWhile_cons, ended]
    rfl
  | given early more ih =>
    rw [List.map_cons, List.takeWhile_cons, early, Bool.not_false, if_pos rfl]
    rcases ih with all | ⟨now, ended, others⟩
    · exact .inl (congrArg _ all)
    · exact .inr ⟨now, ended, congrArg _ others⟩

/-- What is given adds up to the distance of the last reading in time, if readings are whole. -/
theorem Chained.total {isLate : Float → Bool} {last : Float} {glances : List Glance}
    (chained : Chained isLate last glances) {total : Float} {first present : Nat}
    (here : Seconds last present) (after : first ≤ present)
    (sum : Seconds total (present - first))
    (whole : ∀ glance ∈ glances, ∃ count, Seconds glance.now count)
    (ordered : (last :: glances.map Glance.now).Pairwise (· ≤ ·)) :
    ∃ reached, first ≤ reached ∧
      Seconds (((glances.map Glance.now).takeWhile fun now => !isLate now).getLastD last) reached ∧
      Seconds ((glances.filterMap Glance.given).foldl (· + ·) total) (reached - first) := by
  induction chained generalizing total present with
  | done => exact ⟨present, after, here, sum⟩
  | late ended =>
    -- Nothing is given, and the last reading in time is still the one before.
    refine ⟨present, after, ?_, sum⟩
    simpa [ended] using here
  | @given last now rest early more ih =>
    obtain ⟨⟨count, reading⟩, others⟩ := List.forall_mem_cons.mp whole
    obtain ⟨rises, ordered⟩ := List.pairwise_cons.mp ordered
    -- The reading is not before the last one, and their distance is exact.
    have later : present ≤ count := here.le reading (rises now (by simp))
    have elapsed : Seconds (now - last) (count - present) := reading.sub here later
    have grown : present - first + (count - present) = count - first := by omega
    have exact : present - first + (count - present) < exactLimit := by
      have bound := reading.1
      omega
    have next := sum.add elapsed exact
    rw [grown] at next
    obtain ⟨reached, behind, place, added⟩ := ih reading (by omega) next others ordered
    refine ⟨reached, behind, ?_, ?_⟩
    · rw [List.map_cons, List.takeWhile_cons, early, Bool.not_false, if_pos rfl,
        List.getLastD_cons]
      exact place
    · exact added

end Machine

/--
A realtime run gives the timers all time but that before a reading that finds it over.

The clock may show any whole numbers of seconds that a double holds exactly and that do not fall,
and the host may do anything in its sleeps.
However the run ends, what its passes give to the timers adds up to the time from the first reading
to the last one in time.
All readings are in time, but for a last one that finds the run over by its duration: the time
before it is withheld.
-/
theorem realtime_gives_time {σ ε : Type} (host : Host σ ε) (pace : Pace) (fuel : Nat) (world : σ)
    (machine : Machine) (single : pace.background = false)
    (whole : ∀ reading ∈ (machine.timeline host pace fuel world).readings,
      ∃ count, Seconds reading count)
    (ordered : (machine.timeline host pace fuel world).readings.Pairwise (· ≤ ·)) :
    let timeline := machine.timeline host pace fuel world
    (machine.watchRealtime host pace fuel world).1 = machine.runRealtime host pace fuel world ∧
      (timeline.total == (timeline.inTime pace).getLastD timeline.start - timeline.start) = true ∧
      (timeline.readings = timeline.start :: timeline.inTime pace ∨
        ∃ now, timeline.isOver pace now = true ∧
          timeline.readings = timeline.start :: (timeline.inTime pace ++ [now])) := by
  -- The glances of the run are chained from the first reading on, which is its first last one.
  have chained := Machine.watchPasses_chained single host fuel
    ⟨(host.clock world).1, (host.clock world).1, (host.clock world).1, 0⟩ (host.clock world).2
    (machine.enterRealtime pace)
  obtain ⟨⟨first, start⟩, others⟩ := List.forall_mem_cons.mp whole
  have nothing : Seconds 0.0 (first - first) := by
    rw [Nat.sub_self]
    exact ⟨by decide, by decide +kernel⟩
  obtain ⟨reached, behind, place, added⟩ := chained.total start (Nat.le_refl first) nothing
    (fun glance member => others glance.now (List.mem_map_of_mem member)) ordered
  refine ⟨Machine.watchRealtime_fst host pace fuel world machine, ?_, ?_⟩
  · exact added.beq (place.sub start behind)
  · rcases chained.inTime with all | ⟨now, ended, others⟩
    · exact .inl (congrArg _ all)
    · exact .inr ⟨now, ended, congrArg _ others⟩

/-- A clock that goes on by one second at each look, and sleeps that last as long as they should. -/
def secondHand : Host Float Empty where
  clock := fun time => (time, time + 1.0)
  sleep := fun seconds time machine => (.ok (), time + seconds, machine)

/-- A machine with one instruction a second that is about to set its delay timer. -/
def slow : Machine :=
  (Machine.new { Config.standard with instructionsPerSecond := 1.0 } (.seeded 0)).after
    [.loadImage [0x60, 0xC8, 0xF0, 0x15]]

/-- Three seconds of a run. -/
def threeSeconds : Pace :=
  { duration := some 3.0 }

/-- Of three seconds on the clock, the timers are given two. -/
theorem realtime_gives_time_slow :
    (slow.timeline secondHand threeSeconds 5 0.0).readings = [0.0, 1.0, 2.0, 3.0] ∧
      (slow.timeline secondHand threeSeconds 5 0.0).inTime threeSeconds = [1.0, 2.0] ∧
      ((slow.timeline secondHand threeSeconds 5 0.0).total == 2.0 - 0.0) = true := by
  have readings :
      (slow.timeline secondHand threeSeconds 5 0.0).readings = [0.0, 1.0, 2.0, 3.0] := by
    decide +kernel
  have inTime : (slow.timeline secondHand threeSeconds 5 0.0).inTime threeSeconds = [1.0, 2.0] := by
    decide +kernel
  have start : (slow.timeline secondHand threeSeconds 5 0.0).start = 0.0 := by decide +kernel
  -- Each reading of the second hand is a whole number of seconds.
  have whole : ∀ reading ∈ (slow.timeline secondHand threeSeconds 5 0.0).readings,
      ∃ count, Seconds reading count := by
    rw [readings]
    intro reading listed
    simp only [List.mem_cons, List.not_mem_nil, or_false] at listed
    rcases listed with rfl | rfl | rfl | rfl
    · exact ⟨0, by decide +kernel⟩
    · exact ⟨1, by decide +kernel⟩
    · exact ⟨2, by decide +kernel⟩
    · exact ⟨3, by decide +kernel⟩
  have ordered :
      (slow.timeline secondHand threeSeconds 5 0.0).readings.Pairwise (· ≤ ·) := by
    rw [readings]
    decide +kernel
  obtain ⟨-, given, -⟩ :=
    realtime_gives_time secondHand threeSeconds 5 0.0 slow rfl whole ordered
  refine ⟨readings, inTime, ?_⟩
  rw [inTime, start] at given
  exact given

/-- A run of three seconds returns without giving the timers the last of them. -/
theorem last_second_withheld :
    (slow.runRealtime secondHand threeSeconds 5 0.0).1.issued? = some 2 ∧
      (slow.timeline secondHand threeSeconds 5 0.0).readings = [0.0, 1.0, 2.0, 3.0] ∧
      ((slow.timeline secondHand threeSeconds 5 0.0).total == 3.0 - 0.0) = false := by
  -- The third second passes between the last two readings, and neither look gives it.
  exact ⟨by decide +kernel, by decide +kernel, by decide +kernel⟩

end Chip8
