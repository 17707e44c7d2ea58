import Chip8.Machine.Basic

/-!
The realtime loop: instructions and timer ticks on two schedules that share one clock.

Timers go on while the machine waits for a key and after it has halted.
They tick by the clock of the loop, or on a thread of their own.
The loop asks its surroundings for the time, for the ticks of that thread, and for sleeps, during
which a host may use the machine.
One turn of it is the same in all surroundings: on a real clock, or in a world that a host makes up.
-/

namespace Chip8

/-- What the loop knows about its own course. -/
structure Schedule where
  /-- The first clock reading. -/
  start : Float
  /-- The last clock reading up to which timers were advanced. -/
  last : Float
  /-- The time at which the next instruction is due. -/
  next : Float
  /-- Number of instructions issued. -/
  issued : Nat := 0

/-- What one pass of the loop comes to. -/
inductive Move where
  | leave
  | sleep (seconds : Float)
  | issue

/-- How a realtime run ended. -/
inductive Exit (ε : Type) where
  /-- The loop ended by itself after some number of issued instructions. -/
  | returned (issued : Nat)
  /-- A step, or a tick count, was refused. -/
  | faulted (fault : Fault)
  /-- The host's sleep did not return. -/
  | interrupted (reason : ε)
  /-- The passes that were allowed for are used up. -/
  | unfinished

/-- The choices a host makes for one realtime run. -/
structure Pace where
  /-- Seconds to run; without them, until halted with idle timers. -/
  duration : Option Float := none
  /-- Timers tick on a thread of their own instead of by the loop. -/
  background : Bool := false

/-- What the loop asks for, and the effects that its answers have. -/
structure Surroundings (m : Type → Type) (ε : Type) where
  clock : m Float
  /-- The ticks that a thread of the timers has made since it was last asked. -/
  ticks : m Nat
  /-- A sleep for some seconds, which may not return. -/
  sleep : Float → Machine → m (Except ε Unit × Machine)

/-- The ticks of the thread since it was last asked, if the timers have one. -/
def Surroundings.meanwhile {m : Type → Type} {ε : Type} [Monad m] (around : Surroundings m ε)
    (pace : Pace) : m Nat :=
  if pace.background then around.ticks else pure 0

/-- Clock, thread and sleeps of a world that a host makes up and that each of them passes on. -/
structure Host (σ ε : Type) where
  clock : σ → Float × σ
  ticks : σ → Nat × σ := fun world => (0, world)
  sleep : Float → σ → Machine → Except ε Unit × σ × Machine

namespace Host

variable {σ ε : Type}

/-- The surroundings of a loop in the world of a host. -/
def surroundings (host : Host σ ε) : Surroundings (StateM σ) ε where
  clock := modifyGet host.clock
  ticks := modifyGet host.ticks
  sleep seconds machine := modifyGet fun world =>
    let (awake, world, machine) := host.sleep seconds world machine
    ((awake, machine), world)

/-- The ticks of the thread since it was last asked, if the timers have one. -/
def meanwhile (host : Host σ ε) (pace : Pace) (world : σ) : Nat × σ :=
  if pace.background then host.ticks world else (0, world)

/-- One look of the loop at the world: the time, and the ticks of the thread until then. -/
def look (host : Host σ ε) (pace : Pace) (world : σ) : Float × Nat × σ :=
  let (now, world) := host.clock world
  (now, host.meanwhile pace world)

end Host

namespace Machine

/-- The shorter of two times, where a comparison that fails keeps the first. -/
def shorter (first second : Float) : Float :=
  if second < first then second else first

/-- Whether a run of limited duration is over. -/
def isOver (pace : Pace) (schedule : Schedule) (now : Float) : Bool :=
  match pace.duration with
  | none => false
  | some duration => duration ≤ now - schedule.start

/-- The move of a machine whose timers have been advanced to the present. -/
def chooseMove (machine : Machine) (pace : Pace) (schedule : Schedule) (now : Float) : Move :=
  if machine.registers.halted then
    if pace.duration.isNone && !machine.registers.timersRunning then .leave
    else .sleep machine.timers.period
  else if schedule.next ≤ now then .issue
  else .sleep (shorter (schedule.next - now) machine.timers.period)

/-- One pass up to its move: ends a run that is over, or else advances the timers. -/
def pass (machine : Machine) (pace : Pace) (schedule : Schedule) (now : Float) :
    Except Fault Move × Schedule × Machine :=
  if isOver pace schedule now then (.ok .leave, schedule, machine)
  else
    let (ticked, moved) :=
      if pace.background then (.ok 0, machine) else machine.advanceTimers (now - schedule.last)
    match ticked with
    | .error fault => (.error fault, schedule, moved)
    | .ok _ =>
      let schedule := { schedule with last := now }
      (.ok (moved.chooseMove pace schedule now), schedule, moved)

/-- Seconds between two instructions. -/
def interval (machine : Machine) : Float :=
  1.0 / machine.config.instructionsPerSecond

/-- The schedule after one more instruction. -/
def issued (machine : Machine) (schedule : Schedule) : Schedule :=
  { schedule with issued := schedule.issued + 1, next := schedule.next + machine.interval }

/-- Makes the move of a pass, which comes to an exit or to the schedule of the next turn. -/
def carryOut {m : Type → Type} {ε : Type} [Monad m] (around : Surroundings m ε) :
    Except Fault Move × Schedule × Machine → m (Except (Exit ε) Schedule × Machine)
  | (.error fault, _, machine) => return (.error (.faulted fault), machine)
  | (.ok .leave, schedule, machine) => return (.error (.returned schedule.issued), machine)
  | (.ok (.sleep seconds), schedule, machine) => do
    match ← around.sleep seconds machine with
    | (.error reason, machine) => return (.error (.interrupted reason), machine)
    | (.ok (), machine) => return (.ok schedule, machine)
  | (.ok .issue, schedule, machine) =>
    match machine.step with
    | (.refused fault, machine) => return (.error (.faulted fault), machine)
    | (_, machine) => return (.ok (machine.issued schedule), machine)

/-- One turn of the loop in any surroundings. -/
def turn {m : Type → Type} {ε : Type} [Monad m] (around : Surroundings m ε) (pace : Pace)
    (schedule : Schedule) (machine : Machine) : m (Except (Exit ε) Schedule × Machine) := do
  if machine.stopRequested then
    return (.error (.returned schedule.issued), machine)
  else
    let now ← around.clock
    let ticks ← around.meanwhile pace
    carryOut around ((machine.tickMany ticks).pass pace schedule now)

/-- At most some number of turns of the loop in the world of a host. -/
def passes {σ ε : Type} (host : Host σ ε) (pace : Pace) :
    Nat → Schedule → σ → Machine → Exit ε × σ × Machine
  | 0, _, world, machine => (.unfinished, world, machine)
  | fuel + 1, schedule, world, machine =>
    match (turn host.surroundings pace schedule machine).run world with
    | ((.error exit, machine), world) => (exit, world, machine)
    | ((.ok schedule, machine), world) => passes host pace fuel schedule world machine

/-- The machine at the start of a realtime run. -/
def enterRealtime (machine : Machine) (pace : Pace) : Machine :=
  let ready := { machine with stopRequested := false }
  if pace.background then { ready with timers := ready.timers.start } else ready

/-- The machine after a realtime run, however it ended: the tone is silent. -/
def leaveRealtime (machine : Machine) (pace : Pace) : Machine :=
  let timers := if pace.background then machine.timers.stop else machine.timers
  { machine with timers := timers.setTone false }

/--
A realtime run in any surroundings, given a loop that takes its turns.

The loop may end because the duration is over, the host asks to stop, or all is at rest.
The thread of the timers goes on until it is stopped behind the loop.
-/
def realtime {m : Type → Type} {ε : Type} [Monad m] (around : Surroundings m ε) (pace : Pace)
    (loop : Schedule → Machine → m (Exit ε × Machine)) (machine : Machine) :
    m (Exit ε × Machine) := do
  let start ← around.clock
  let (exit, left) ← loop { start, last := start, next := start } (machine.enterRealtime pace)
  let ticks ← around.meanwhile pace
  return (exit, (left.tickMany ticks).leaveRealtime pace)

/-- A realtime run of at most some number of turns in the world of a host. -/
def runRealtime {σ ε : Type} (host : Host σ ε) (pace : Pace) (fuel : Nat) (world : σ)
    (machine : Machine) : Exit ε × σ × Machine :=
  let loop (schedule : Schedule) (machine : Machine) : StateM σ (Exit ε × Machine) :=
    modifyGet fun world =>
      let (exit, world, machine) := passes host pace fuel schedule world machine
      ((exit, machine), world)
  let ((exit, left), world) := (machine.realtime host.surroundings pace loop).run world
  (exit, world, left)

end Machine

end Chip8
