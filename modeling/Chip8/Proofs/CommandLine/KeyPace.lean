import Chip8.Proofs.CommandLine.SleepScript
import Chip8.Proofs.Machine.Delivery
import Chip8.Proofs.Machine.Fault
import Chip8.Proofs.Machine.Reset
import Chip8.Proofs.Time.Grains

/-!
The pace at which no key of a list is wasted.

A machine that takes an instruction in every period of its timers sleeps no longer than until the
next instruction is due, and never twice in a row, so it is stepped between any two taps.
-/

namespace Chip8

/-- A machine with these settings takes an instruction in every period of its timers. -/
def Config.Brisk (config : Config) : Prop :=
  0.0 ≤ 1.0 / config.instructionsPerSecond ∧
    1.0 / config.instructionsPerSecond ≤ 1.0 / config.timerRate

/-- Whether settings are brisk can be computed. -/
instance (config : Config) : Decidable config.Brisk :=
  inferInstanceAs (Decidable (_ ∧ _))

namespace Session

variable {config : Config} {machine : Machine} {interval period now : Float} {schedule : Schedule}

/-! ### Sleeps -/

/-- The next instruction is due, or it is due an interval behind some time that has passed. -/
structure Punctual (interval now : Float) (schedule : Schedule) : Prop where
  /-- The clock is not before zero. -/
  present : 0.0 ≤ now
  /-- No time has passed yet, or at least an interval. -/
  begun : now ≤ 0.0 ∨ interval ≤ now
  /-- The next instruction is not due before zero. -/
  planned : 0.0 ≤ schedule.next
  /-- The next instruction is due by an interval behind the present. -/
  near : schedule.next ≤ now ∨
    ∃ past, 0.0 ≤ past ∧ past ≤ now ∧ schedule.next = past + interval

/-- An instruction that was due puts the next one an interval off. -/
theorem Punctual.issued (punctual : Punctual interval now schedule) (positive : 0.0 ≤ interval)
    (due : schedule.next ≤ now) {issued : Nat} :
    Punctual interval now { schedule with next := schedule.next + interval, issued } where
  present := punctual.present
  begun := punctual.begun
  planned := zero_le_of_le positive (le_add_time punctual.planned positive)
  near := .inr ⟨schedule.next, punctual.planned, due, rfl⟩

/-- A sleep until the next instruction, or for a period that is no shorter than an interval. -/
theorem Punctual.sleep (punctual : Punctual interval now schedule) (positive : 0.0 ≤ interval)
    (brisk : interval ≤ period) (early : ¬schedule.next ≤ now) :
    schedule.next ≤ now + Machine.shorter (schedule.next - now) period := by
  obtain ⟨past, begun, passed, next⟩ := punctual.near.resolve_left early
  unfold Machine.shorter
  split
  · -- The last instruction was due by now, so the next one is due by a period from now.
    rw [next]
    exact time_add_mono begun passed positive brisk
  · -- Until the next instruction is no longer than until now, so the difference is exact.
    refine le_add_sub punctual.present punctual.planned early ?_
    rcases punctual.begun with none | some
    · exact .inl none
    · refine .inr ?_
      rw [next]
      exact time_add_mono begun passed positive some

/-- Behind a sleep the next instruction is due. -/
theorem Punctual.awake (punctual : Punctual interval now schedule) (positive : 0.0 ≤ interval)
    (early : ¬schedule.next ≤ now) {later : Float} (due : schedule.next ≤ later) :
    Punctual interval later schedule where
  present := zero_le_of_le punctual.planned due
  begun := by
    obtain ⟨past, begun, -, next⟩ := punctual.near.resolve_left early
    -- A deadline in the future is one interval behind a moment that has begun.
    have interval : interval ≤ schedule.next := by
      rw [next]
      exact le_add_time begun positive
    exact .inr (time_le_trans positive interval due)
  planned := punctual.planned
  near := .inl due

/-! ### Taps -/

/-- Time is no matter to whether presses are spaced. -/
theorem spaced_timing {events : List Event} (timing : ∀ event ∈ events, event.isTiming = true)
    (untaken : Bool) (rest : List Event) :
    spaced untaken (events ++ rest) = spaced untaken rest := by
  -- Neither ticks nor seconds are presses or steps.
  induction events with
  | nil => rfl
  | cons event more ih =>
    obtain ⟨first, later⟩ := List.forall_mem_cons.mp timing
    cases event with
    | tick | advance => exact ih later
    | _ => cases first

/-- A machine that does not wait is fed no key. -/
theorem fed_of_unawaiting (keys : List Key) (other : machine.registers.mode ≠ .awaitingKey) :
    (fed keys machine).2 = [] := by
  -- The list is left as it is, whether it is empty or not.
  unfold fed
  split
  · rfl
  · rw [if_neg (by simpa [Registers.awaitingKey] using other)]

/-- Keys that are fed are a tap, or none at all. -/
theorem fed_cases (keys : List Key) (machine : Machine) :
    (fed keys machine).2 = [] ∨ ∃ key, (fed keys machine).2 = taps key := by
  unfold fed
  split
  · exact .inl rfl
  · split
    · exact .inr ⟨_, rfl⟩
    · exact .inl rfl

/-- A sleep in the script of a session feeds keys and goes on with the clock. -/
theorem slept_eq {seconds : Float} {world awake : SleepClock} {slept : Except Unit Unit}
    {events : List Event}
    (sleep : sleepScript.sleep seconds world machine = (slept, awake, events)) :
    events = (fed world.keys machine).2 ∧ (slept = .ok () → awake.time = world.time + seconds) := by
  -- The keys are fed first, and a sleep that is broken off takes no time.
  simp only [sleepScript] at sleep
  split at sleep
  · cases sleep
    exact ⟨rfl, fun done => by cases done⟩
  · cases sleep
    exact ⟨rfl, fun _ => rfl⟩

/-- A session looks at its clock, and leaves it as it is. -/
theorem look_eq {pace : Pace} {world later : SleepClock} {ticks : Nat}
    (look : sleepScript.host.look pace world = (now, ticks, later)) :
    now = world.time ∧ later = world := by
  -- Neither its clock nor its thread, which makes no ticks, is changed by being asked.
  have same := sleepScript_look pace world
  rw [look] at same
  exact ⟨(congrArg Prod.fst look).symm, same⟩

/-! ### Loops -/

/-- The machine of a loop has halted, or its next instruction is due in time. -/
def OnTime (config : Config) (untaken : Bool) (schedule : Schedule) (world : SleepClock)
    (machine : Machine) : Prop :=
  machine.registers.mode = .halted ∨
    (Punctual (1.0 / config.instructionsPerSecond) world.time schedule ∧
      (untaken = true → schedule.next ≤ world.time))

/-- While time goes by a machine stays halted. -/
theorem halted_after_timing {events : List Event}
    (timing : ∀ event ∈ events, event.isTiming = true) (halted : machine.registers.mode = .halted) :
    (machine.after events).registers.mode = .halted := by
  -- Time loads nothing.
  induction events generalizing machine with
  | nil => exact halted
  | cons event rest ih =>
    obtain ⟨first, later⟩ := List.forall_mem_cons.mp timing
    refine ih later (Machine.halted_apply event ?_ halted)
    cases event with
    | tick | advance => rfl
    | _ => cases first

/-- A pass that comes to a move other than the end leaves the machine on time. -/
theorem OnTime.pass {untaken : Bool} {pace : Pace} {world later : SleepClock} {ticks : Nat}
    {next : Schedule} {left : Machine} {move : Move}
    (onTime : OnTime config untaken schedule world machine)
    (equipped : machine.Equipped config)
    (look : sleepScript.host.look pace world = (now, ticks, later))
    (passed : (machine.tickMany ticks).pass pace schedule now = (.ok move, next, left))
    (goes : move ≠ .leave) :
    OnTime config untaken next later left ∧ left.Equipped config ∧
      left.chooseMove pace next later.time = move := by
  -- Only the last reading is noted in the schedule, and that is no matter to when a step is due.
  obtain ⟨rfl, rfl⟩ := look_eq look
  rcases Machine.pass_ok passed with ⟨-, leaves⟩ | ⟨-, rfl, chosen⟩
  · exact absurd leaves goes
  · have timing := Machine.timing_due pace schedule later.time ticks
    obtain rfl := Machine.after_due passed
    refine ⟨?_, equipped.after _, chosen⟩
    rcases onTime with halted | ⟨punctual, due⟩
    · exact .inl (halted_after_timing timing halted)
    · exact .inr ⟨{ punctual with }, due⟩

/-- A sleep of a brisk machine that is on time taps no key before the last one is taken. -/
theorem OnTime.sleep {untaken : Bool} {pace : Pace} {world awake : SleepClock} {seconds : Float}
    {slept : Except Unit Unit} {events : List Event} (brisk : config.Brisk)
    (onTime : OnTime config untaken schedule world machine) (equipped : machine.Equipped config)
    (chosen : machine.chooseMove pace schedule world.time = .sleep seconds)
    (sleep : sleepScript.sleep seconds world machine = (slept, awake, events)) :
    (events = [] ∨ untaken = false ∧ ∃ key, events = taps key) ∧
      (slept = .ok () →
        ∀ waiting, OnTime config waiting schedule awake (machine.after events)) := by
  obtain ⟨fed, later⟩ := slept_eq sleep
  by_cases halted : machine.registers.mode = .halted
  · -- A halted machine waits for no key.
    rw [fed_of_unawaiting world.keys (by simp [halted])] at fed
    subst fed
    exact ⟨.inl rfl, fun _ _ => .inl halted⟩
  · -- The next instruction is not due yet, so it is due behind this sleep.
    obtain ⟨punctual, due⟩ := onTime.resolve_left halted
    rw [Machine.move_of_awake pace schedule world.time halted] at chosen
    split at chosen
    · cases chosen
    · rename_i early
      obtain rfl := Move.sleep.inj chosen
      have period : machine.timers.period = 1.0 / config.timerRate :=
        congrArg (1.0 / ·) equipped.rate
      have wakes : schedule.next ≤ world.time +
          Machine.shorter (schedule.next - world.time) machine.timers.period := by
        rw [period]
        exact punctual.sleep brisk.1 brisk.2 early
      refine ⟨?_, fun done waiting => .inr ?_⟩
      · rw [fed]
        rcases fed_cases world.keys machine with none | tapped
        · exact .inl none
        · exact .inr ⟨Bool.eq_false_iff.mpr fun taken => early (due taken), tapped⟩
      · rw [← later done] at wakes
        exact ⟨punctual.awake brisk.1 early wakes, fun _ => wakes⟩

/-- A brisk machine is stepped between any two taps of a session's loop. -/
theorem spaced_of_loops (brisk : config.Brisk) {pace : Pace} {world last : SleepClock}
    {final : Machine} {events : List Event} {exit : Exit Unit}
    (loops : Machine.Loops sleepScript pace schedule world machine events exit last final)
    (equipped : machine.Equipped config) {untaken : Bool}
    (onTime : OnTime config untaken schedule world machine) : spaced untaken events = true := by
  -- A tap is in a sleep, behind which the next instruction is due, and a step takes the key.
  induction loops generalizing untaken with
  | unfinished | stopped => rfl
  | timeless look passed | ended look passed =>
    rw [← List.append_nil (Machine.due _ _ _ _), spaced_timing (Machine.timing_due _ _ _ _)]
    rfl
  | interrupted look passed slept =>
    obtain ⟨onTime, equipped, chosen⟩ := onTime.pass equipped look passed (by rintro ⟨⟩)
    rw [spaced_timing (Machine.timing_due _ _ _ _)]
    obtain ⟨rfl | ⟨rfl, key, rfl⟩, -⟩ := onTime.sleep brisk equipped chosen slept <;> rfl
  | sleeping look passed slept rest ih =>
    obtain ⟨onTime, equipped, chosen⟩ := onTime.pass equipped look passed (by rintro ⟨⟩)
    rw [spaced_timing (Machine.timing_due _ _ _ _)]
    obtain ⟨fed, later⟩ := onTime.sleep brisk equipped chosen slept
    have more := fun waiting => ih (equipped.after _) (later rfl waiting)
    rcases fed with rfl | ⟨rfl, key, rfl⟩
    · exact more untaken
    · exact more true
  | refused look passed refused =>
    rw [spaced_timing (Machine.timing_due _ _ _ _)]
    rfl
  | stepping look passed stepped rest ih =>
    obtain ⟨onTime, equipped, chosen⟩ := onTime.pass equipped look passed (by rintro ⟨⟩)
    obtain rfl := congrArg Prod.snd stepped
    rw [spaced_timing (Machine.timing_due _ _ _ _)]
    -- The instruction was due, and the next one is due an interval later.
    have awake := Machine.awake_of_issue chosen
    obtain ⟨punctual, -⟩ := onTime.resolve_left awake
    rw [Machine.move_of_awake _ _ _ awake] at chosen
    split at chosen
    · rename_i due
      refine ih equipped.step (.inr ⟨?_, fun wrong => by cases wrong⟩)
      rw [Machine.issued, Machine.interval, equipped.step.settings]
      exact punctual.issued brisk.1 due
    · cases chosen

end Session

end Chip8
