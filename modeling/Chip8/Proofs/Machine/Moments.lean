import Chip8.Proofs.Machine.Journal

/-!
Histories taken apart into moments.

A realtime run is no single event: it begins, lets the timers catch up, steps, sleeps and ends.
Each of these is a moment.
So every history is a list of moments, and what holds behind every list of moments holds all the
time, in the middle of a realtime run as well as behind it.
-/

namespace Chip8

/-- Something that happens to a machine all at once. -/
inductive Moment where
  /-- An event happens. -/
  | happens (event : Event)
  /-- A realtime run begins. -/
  | begins (pace : Pace)
  /-- A realtime run ends. -/
  | ends (pace : Pace)

/-- The machine behind a moment. -/
def Moment.apply (moment : Moment) (machine : Machine) : Machine :=
  match moment with
  | .happens event => event.apply machine
  | .begins pace => machine.enterRealtime pace
  | .ends pace => machine.leaveRealtime pace

namespace Machine

/-- The machine behind a list of moments. -/
def through (machine : Machine) : List Moment → Machine
  | [] => machine
  | moment :: rest => (moment.apply machine).through rest

/-- Moments lead from one machine to another. -/
def LeadsTo (first last : Machine) : Prop :=
  ∃ moments : List Moment, last = first.through moments

variable {config : Config} {machine first middle last : Machine}

/-- A list of moments goes on where its beginning ends. -/
theorem through_append (machine : Machine) (earlier later : List Moment) :
    machine.through (earlier ++ later) = (machine.through earlier).through later := by
  -- The machine is handed along the beginning, moment by moment.
  induction earlier generalizing machine with
  | nil => rfl
  | cons moment rest ih => exact ih (moment.apply machine)

/-- Nothing needs to happen for a machine to stay as it is. -/
theorem LeadsTo.refl (machine : Machine) : machine.LeadsTo machine :=
  ⟨[], rfl⟩

/-- What happens later is put behind what happens earlier. -/
theorem LeadsTo.trans (earlier : first.LeadsTo middle) (later : middle.LeadsTo last) :
    first.LeadsTo last := by
  obtain ⟨before, rfl⟩ := earlier
  obtain ⟨behind, rfl⟩ := later
  exact ⟨before ++ behind, (through_append first before behind).symm⟩

/-- One more moment leads on. -/
theorem LeadsTo.snoc (leads : first.LeadsTo last) (moment : Moment) :
    first.LeadsTo (moment.apply last) :=
  leads.trans ⟨[moment], rfl⟩

/-- The events of a sequence are moments. -/
theorem through_events (machine : Machine) (events : List Event) :
    machine.through (events.map .happens) = machine.after events := by
  -- Each event leads to the machine that the next one finds.
  induction events generalizing machine with
  | nil => rfl
  | cons event rest ih => exact ih (event.apply machine)

/-- A sequence of events leads on. -/
theorem leadsTo_after (machine : Machine) (events : List Event) :
    machine.LeadsTo (machine.after events) :=
  ⟨events.map .happens, (machine.through_events events).symm⟩

/-! ### Realtime runs -/

variable {σ ε : Type} {host : Host σ ε}

/-- The passes of a realtime loop are moments, if the sleeps of its host are. -/
theorem leadsTo_passes
    (sleeps : ∀ seconds world machine, LeadsTo machine (host.sleep seconds world machine).2.2)
    (pace : Pace) (fuel : Nat) (schedule : Schedule) (world : σ) (machine : Machine) :
    machine.LeadsTo (passes host pace fuel schedule world machine).2.2 := by
  -- The induction is on the passes that are left; each of them ends, sleeps or steps.
  induction fuel generalizing schedule world machine with
  | zero => exact .refl machine
  | succ fuel ih =>
    rcases look : host.look pace world with ⟨now, ticks, later⟩
    -- Up to its move, a pass does no more than let the timers catch up.
    have caught : ∀ {verdict next left},
        (machine.tickMany ticks).pass pace schedule now = (verdict, next, left) →
          machine.LeadsTo left := by
      intro verdict next left passed
      rw [← after_due passed]
      exact leadsTo_after machine _
    simp only [passes_succ, look]
    split
    · exact .refl machine
    · split
      · rename_i passed
        exact caught passed
      · rename_i passed
        exact caught passed
      · rename_i seconds next ready passed
        -- Whatever the host does in its sleep is made of moments.
        have slept := (caught passed).trans (sleeps seconds later ready)
        split
        · rename_i awake
          rwa [awake] at slept
        · rename_i awake
          rw [awake] at slept
          exact slept.trans (ih _ _ _)
      · rename_i next ready passed
        have stepped := (caught passed).snoc (.happens .step)
        simp only [Moment.apply, Event.apply] at stepped
        split
        · rename_i left
          rwa [left] at stepped
        · rename_i left
          rw [left] at stepped
          exact stepped.trans (ih _ _ _)

/-- A realtime run begins, passes, and ends. -/
theorem leadsTo_runRealtime
    (sleeps : ∀ seconds world machine, LeadsTo machine (host.sleep seconds world machine).2.2)
    (pace : Pace) (fuel : Nat) (world : σ) (machine : Machine) :
    machine.LeadsTo (machine.runRealtime host pace fuel world).2.2 := by
  rcases clock : host.clock world with ⟨start, later⟩
  have begun := (LeadsTo.refl machine).snoc (.begins pace)
  have looped := leadsTo_passes sleeps pace fuel { start, last := start, next := start } later
    (machine.enterRealtime pace)
  simp only [runRealtime_eq, clock]
  -- The thread of the timers may tick once more before it is stopped.
  refine ((begun.trans looped).trans ?_).snoc (.ends pace)
  rw [← after_ticks]
  exact leadsTo_after _ _

/-- Every history is made of moments. -/
theorem leadsTo_of_evolves {allowed : Event → Prop} (history : Evolves allowed first last) :
    first.LeadsTo last := by
  -- The sleeps of a realtime run are histories of their own.
  induction history with
  | refl machine => exact .refl machine
  | event event _ _ ih => exact ih.snoc (.happens event)
  | realtime host pace passes world _ _ slept ih =>
    exact ih.trans (leadsTo_runRealtime slept pace passes world _)

/-- Moments lead from power-on to every reachable machine. -/
theorem Reachable.moments (reachable : machine.Reachable config) :
    ∃ random moments, machine = (withRandom config random).through moments := by
  obtain ⟨random, history⟩ := reachable
  exact ⟨random, leadsTo_of_evolves history⟩

/-! ### The invariant -/

/-- A moment keeps the invariant. -/
theorem Sound.moment (sound : machine.Sound config) (moment : Moment) :
    (moment.apply machine).Sound config := by
  cases moment with
  | happens event => exact sound.apply event
  | begins pace =>
    -- A realtime run begins with its driver, which the invariant does not ask about.
    show (machine.enterRealtime pace).Sound config
    unfold enterRealtime
    split <;> exact { sound with }
  | ends pace => exact { sound with }

/-- A list of moments keeps the invariant. -/
theorem Sound.through (sound : machine.Sound config) (moments : List Moment) :
    (machine.through moments).Sound config := by
  induction moments generalizing machine with
  | nil => exact sound
  | cons moment rest ih => exact ih (sound.moment moment)

end Machine

end Chip8
