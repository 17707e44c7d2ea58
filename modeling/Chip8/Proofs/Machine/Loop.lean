import Chip8.Machine.Realtime

/-!
The realtime loop in the world of a host.

A turn of the loop asks its surroundings for the time, for ticks and for sleeps.
In the world of a host the answers are functions of that world, and the loop is a recursion on the
number of its passes.
-/

namespace Chip8

variable {σ ε : Type}

namespace Host

variable {pace : Pace}

/-- Timers without a thread make no ticks by themselves. -/
theorem meanwhile_single (host : Host σ ε) (single : pace.background = false) (world : σ) :
    host.meanwhile pace world = (0, world) := by
  simp only [meanwhile, single, Bool.false_eq_true, if_false]

/-- The surroundings ask the host for the ticks of the thread. -/
theorem meanwhile_surroundings (host : Host σ ε) (pace : Pace) :
    host.surroundings.meanwhile pace = modifyGet (host.meanwhile pace) := by
  unfold Surroundings.meanwhile Host.meanwhile
  cases pace.background <;> rfl

/-- The surroundings sleep as the host does. -/
theorem run_sleep (host : Host σ ε) (seconds : Float) (world : σ) (machine : Machine) :
    (host.surroundings.sleep seconds machine).run world =
      (((host.sleep seconds world machine).1, (host.sleep seconds world machine).2.2),
        (host.sleep seconds world machine).2.1) :=
  rfl

end Host

namespace Machine

/-- No tick makes no difference. -/
@[simp]
theorem tickMany_zero (machine : Machine) : machine.tickMany 0 = machine :=
  rfl

/-- A turn looks at the world of the host, and makes the move of its pass. -/
theorem turn_run (host : Host σ ε) (pace : Pace) (schedule : Schedule) (world : σ)
    (machine : Machine) :
    (turn host.surroundings pace schedule machine).run world =
      if machine.stopRequested then ((.error (.returned schedule.issued), machine), world)
      else
        match host.look pace world with
        | (now, ticks, world) =>
          (carryOut host.surroundings
            ((machine.tickMany ticks).pass pace schedule now)).run world := by
  unfold turn
  rw [host.meanwhile_surroundings]
  cases machine.stopRequested <;> rfl

/-- A pass of the loop looks at the world of the host, and is left, sleeps or steps. -/
theorem passes_succ (host : Host σ ε) (pace : Pace) (fuel : Nat) (schedule : Schedule) (world : σ)
    (machine : Machine) :
    passes host pace (fuel + 1) schedule world machine =
      if machine.stopRequested then (.returned schedule.issued, world, machine)
      else
        match host.look pace world with
        | (now, ticks, world) =>
          match (machine.tickMany ticks).pass pace schedule now with
          | (.error fault, _, machine) => (.faulted fault, world, machine)
          | (.ok .leave, schedule, machine) => (.returned schedule.issued, world, machine)
          | (.ok (.sleep seconds), schedule, machine) =>
            match host.sleep seconds world machine with
            | (.error reason, world, machine) => (.interrupted reason, world, machine)
            | (.ok (), world, machine) => passes host pace fuel schedule world machine
          | (.ok .issue, schedule, machine) =>
            match machine.step with
            | (.refused fault, machine) => (.faulted fault, world, machine)
            | (_, machine) => passes host pace fuel (machine.issued schedule) world machine := by
  rw [passes, turn_run]
  cases machine.stopRequested with
  | true => rfl
  | false =>
    rcases host.look pace world with ⟨now, ticks, later⟩
    simp only [Bool.false_eq_true, if_false]
    -- A sleep asks the host once more, and every other move is made without it.
    rcases (machine.tickMany ticks).pass pace schedule now with
      ⟨fault | - | seconds | -, next, left⟩
    · rfl
    · rfl
    · simp only [carryOut, StateT.run_bind, host.run_sleep]
      rcases host.sleep seconds later left with ⟨reason | ⟨⟩, awake, after⟩ <;> rfl
    · dsimp only [carryOut]
      rcases left.step with ⟨entry | - | fault, after⟩ <;> rfl

/-- A realtime run enters the loop at the first reading of the clock, and leaves it. -/
theorem runRealtime_eq (host : Host σ ε) (pace : Pace) (fuel : Nat) (world : σ)
    (machine : Machine) :
    machine.runRealtime host pace fuel world =
      match host.clock world with
      | (start, world) =>
        match passes host pace fuel { start, last := start, next := start } world
            (machine.enterRealtime pace) with
        | (exit, world, left) =>
          match host.meanwhile pace world with
          | (ticks, world) => (exit, world, (left.tickMany ticks).leaveRealtime pace) := by
  unfold runRealtime realtime
  rw [host.meanwhile_surroundings]
  rfl

end Machine

end Chip8
