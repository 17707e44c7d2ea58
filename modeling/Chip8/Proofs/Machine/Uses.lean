import Chip8.Proofs.Machine.View

/-!
Sequences of uses: events and realtime runs, and what a host is told about each.

Machines that are alike tell the same about every sequence of uses.
-/

namespace Chip8

/-- Two outcomes say the same and leave machines that are alike. -/
inductive Machine.Agree {α β : Type} (view : View) : α × β × Machine → α × β × Machine → Prop where
  /-- What is said is the same. -/
  | mk (verdict : α) (rest : β) (first second : Machine) (alike : Alike view first second) :
    Agree view (verdict, rest, first) (verdict, rest, second)

/-- A host whose sleeps look only at what can be told of a machine, and change nothing else. -/
def Host.Blind {σ ε : Type} (host : Host σ ε) : Prop :=
  ∀ (view : Machine.View) (seconds : Float) (world : σ) (first second : Machine),
    view.stop = true → Machine.Alike view first second →
      Machine.Agree view (host.sleep seconds world first) (host.sleep seconds world second)

/-- One use that a host makes of a machine. -/
inductive Use (σ ε : Type) where
  /-- An event. -/
  | plain (event : Event)
  /-- A realtime run by any clock, for any number of passes. -/
  | realtime (host : Host σ ε) (pace : Pace) (passes : Nat) (world : σ)

/-- What a host is told about a use. -/
inductive Reply (σ ε : Type) where
  /-- The answer to an event. -/
  | plain (answer : Answer)
  /-- The way in which a realtime run ended, and the world that it left. -/
  | realtime (exit : Exit ε) (world : σ)

namespace Use

variable {σ ε : Type}

/-- The sleeps of the use are blind to what cannot be told of a machine. -/
def Blind : Use σ ε → Prop
  | .plain _ => True
  | .realtime host .. => host.Blind

/-- What a host is told about the use. -/
def reply (use : Use σ ε) (machine : Machine) : Reply σ ε :=
  match use with
  | .plain event => .plain (event.answer machine)
  | .realtime host pace passes world =>
    let (exit, world, _) := machine.runRealtime host pace passes world
    .realtime exit world

/-- The machine after the use. -/
def apply (use : Use σ ε) (machine : Machine) : Machine :=
  match use with
  | .plain event => event.apply machine
  | .realtime host pace passes world => (machine.runRealtime host pace passes world).2.2

end Use

namespace Machine

/-- The machine after a sequence of uses. -/
def used {σ ε : Type} (machine : Machine) : List (Use σ ε) → Machine
  | [] => machine
  | use :: rest => (use.apply machine).used rest

/-- What a host is told in a sequence of uses. -/
def replies {σ ε : Type} (machine : Machine) : List (Use σ ε) → List (Reply σ ε)
  | [] => []
  | use :: rest => use.reply machine :: (use.apply machine).replies rest

namespace Alike

variable {view : View} {first second : Machine} {σ ε : Type}

/-- Machines that are alike have drivers of the same rate. -/
theorem rate (alike : Alike view first second) : second.timers.rate = first.timers.rate :=
  congrArg (·.rate) alike.timers.symm

/-- Machines that are alike take the same time for an instruction. -/
theorem issued (alike : Alike view first second) (schedule : Schedule) :
    second.issued schedule = first.issued schedule := by
  rw [alike.kept]
  rfl

/-- Machines that are alike choose the same move. -/
theorem chooseMove (alike : Alike view first second) (pace : Pace) (schedule : Schedule)
    (now : Float) : second.chooseMove pace schedule now = first.chooseMove pace schedule now := by
  simp only [Machine.chooseMove, alike.registers, Timers.period, alike.rate]

/-- A pass of the realtime loop keeps machines alike, and chooses the same move. -/
theorem pass (alike : Alike view first second) (pace : Pace) (schedule : Schedule) (now : Float) :
    Agree view (first.pass pace schedule now) (second.pass pace schedule now) := by
  -- The run is over for both, and otherwise time is turned into the same number of ticks.
  unfold Machine.pass
  split
  · exact .mk _ _ _ _ alike
  · cases pace.background with
    | true =>
      simp only [if_true]
      rw [alike.chooseMove]
      exact .mk _ _ _ _ alike
    | false =>
      obtain ⟨count, left⟩ := alike.advanceTimers (now - schedule.last)
      simp only [Bool.false_eq_true, if_false, count]
      rcases (first.advanceTimers (now - schedule.last)).1 with fault | ticks
      · exact .mk _ _ _ _ left
      · dsimp only
        rw [left.chooseMove]
        exact .mk _ _ _ _ left

/-- The passes of a realtime loop keep machines alike, if its host is blind. -/
theorem passes {host : Host σ ε} (blind : host.Blind) (looping : view.stop = true) (pace : Pace)
    (fuel : Nat) (schedule : Schedule) (world : σ) (alike : Alike view first second) :
    Agree view (Machine.passes host pace fuel schedule world first)
      (Machine.passes host pace fuel schedule world second) := by
  -- Both loops read the same clock, move alike, and go on from machines that are alike.
  induction fuel generalizing schedule world first second with
  | zero => exact .mk _ _ _ _ alike
  | succ fuel ih =>
    rcases look : host.look pace world with ⟨now, ticks, later⟩
    simp only [passes_succ, look, alike.stop looping]
    split
    · exact .mk _ _ _ _ alike
    · have passed := (alike.tickMany ticks).pass pace schedule now
      generalize (first.tickMany ticks).pass pace schedule now = earlier at passed ⊢
      generalize (second.tickMany ticks).pass pace schedule now = other at passed ⊢
      obtain ⟨verdict, next, left, right, passed⟩ := passed
      rcases verdict with fault | - | seconds | -
      · exact .mk _ _ _ _ passed
      · exact .mk _ _ _ _ passed
      · -- The host sleeps alike, and may not wake up.
        have slept := blind view seconds later left right looping passed
        dsimp only
        generalize host.sleep seconds later left = earlier at slept ⊢
        generalize host.sleep seconds later right = other at slept ⊢
        obtain ⟨awake, world, left, right, slept⟩ := slept
        cases awake with
        | error reason => exact .mk _ _ _ _ slept
        | ok => exact ih next world slept
      · -- A step has the same result for both, and the next one is due at the same time.
        obtain ⟨same, stepped⟩ := passed.step
        dsimp only
        rcases earlier : left.step with ⟨result, left'⟩
        rcases other : right.step with ⟨result', right'⟩
        rw [earlier, other] at same stepped
        subst same
        cases result' with
        | refused fault => exact .mk _ _ _ _ stepped
        | completed | waiting =>
          dsimp only
          rw [stepped.issued next]
          exact ih _ later stepped

/-- What a running loop looks at includes what is looked at outside. -/
theorem outside (alike : Alike { view with stop := true } first second) : Alike view first second :=
  ⟨alike.kept, alike.timers, alike.presses, fun _ => alike.stop rfl⟩

/-- Machines that are alike enter a realtime loop with no request to stop. -/
theorem enterRealtime (alike : Alike view first second) (pace : Pace) :
    Alike { view with stop := true } (first.enterRealtime pace) (second.enterRealtime pace) := by
  -- The clock in the background is one of the things that nobody looks at.
  unfold Machine.enterRealtime
  split
  · exact ⟨by rw [alike.kept]; rfl, alike.timers, alike.presses, fun _ => rfl⟩
  · exact ⟨by rw [alike.kept]; rfl, alike.timers, alike.presses, fun _ => rfl⟩

/-- Machines that are alike leave a realtime loop with silent tones. -/
theorem leaveRealtime (alike : Alike view first second) (pace : Pace) :
    Alike view (first.leaveRealtime pace) (second.leaveRealtime pace) := by
  -- The driver is stopped or not, and then tells the tone to be silent.
  have stopped : (if pace.background then first.timers.stop else first.timers).seen =
      (if pace.background then second.timers.stop else second.timers).seen := by
    split
    · exact alike.timers
    · exact alike.timers
  refine ⟨by rw [alike.kept]; rfl, ?_, alike.presses, alike.stop⟩
  exact Timers.setTone_alike stopped false

/-- A realtime run keeps machines alike and ends alike, if its host is blind. -/
theorem runRealtime {host : Host σ ε} (blind : host.Blind) (pace : Pace) (fuel : Nat) (world : σ)
    (alike : Alike view first second) :
    Agree view (first.runRealtime host pace fuel world)
      (second.runRealtime host pace fuel world) := by
  -- The loop looks at a request to stop, which is withdrawn before it begins.
  rcases clock : host.clock world with ⟨start, later⟩
  have looped := (alike.enterRealtime pace).passes blind rfl pace fuel
    { start, last := start, next := start } later
  simp only [runRealtime_eq, clock]
  generalize Machine.passes host pace fuel _ later (first.enterRealtime pace) = earlier at looped ⊢
  generalize Machine.passes host pace fuel _ later (second.enterRealtime pace) = other at looped ⊢
  obtain ⟨exit, world, left, right, looped⟩ := looped
  exact .mk _ _ _ _ ((looped.outside.tickMany _).leaveRealtime pace)

/-- A blind use keeps machines alike, and a host is told the same about it. -/
theorem use (alike : Alike view first second) (use : Use σ ε) (blind : use.Blind) :
    use.reply second = use.reply first ∧ Alike view (use.apply first) (use.apply second) := by
  -- A blind host shows both loops the same world, so they take the same passes.
  cases use with
  | plain event => exact ⟨congrArg Reply.plain (alike.apply event).1, (alike.apply event).2⟩
  | realtime host pace passes world =>
    have agree := alike.runRealtime blind pace passes world
    simp only [Use.reply, Use.apply]
    generalize first.runRealtime host pace passes world = earlier at agree ⊢
    generalize second.runRealtime host pace passes world = other at agree ⊢
    obtain ⟨exit, world, left, right, looped⟩ := agree
    exact ⟨rfl, looped⟩

/-- Blind uses keep machines alike, and a host is told the same about all of them. -/
theorem uses (alike : Alike view first second) (uses : List (Use σ ε))
    (blind : ∀ use ∈ uses, use.Blind) :
    second.replies uses = first.replies uses ∧ Alike view (first.used uses) (second.used uses) := by
  -- Each use leaves machines that are alike for the uses behind it.
  induction uses generalizing first second with
  | nil => exact ⟨rfl, alike⟩
  | cons use rest ih =>
    obtain ⟨now, later⟩ := List.forall_mem_cons.mp blind
    obtain ⟨told, left⟩ := alike.use use now
    obtain ⟨rest_told, last⟩ := ih left later
    exact ⟨by rw [replies, replies, told, rest_told], last⟩

end Alike

end Machine

end Chip8
