import Chip8.Proofs.Machine.Invariant

/-!
The chronicle of a machine: all that it has recorded since it was loaded.

A chronicle is kept beside the machine and never cut.
It holds every entry together with the machine that the step of the entry has found, and keeping it
changes nothing in the machine.
-/

namespace Chip8

/-- An entry that a step has recorded, and the machine that the step found. -/
structure Recording where
  found : Machine
  entry : TraceEntry

/-- A machine, and all that it has recorded since it was loaded, oldest first. -/
structure Chronicle where
  machine : Machine
  recordings : List Recording := []

namespace Machine

/-- The machine with an empty trace that has room for one entry. -/
def unwritten (machine : Machine) : Machine :=
  { machine with config := { machine.config with traceLimit := 1 }, recent := [] }

/-- The entry that a step of the machine records, if it records one. -/
def recording? (machine : Machine) : Option TraceEntry :=
  machine.unwritten.step.2.recent.head?

end Machine

namespace Chronicle

/-! ### Keeping a chronicle -/

/-- The chronicle of a machine after a step, which has recorded one entry at most. -/
def step (chronicle : Chronicle) : StepResult × Chronicle :=
  let recording? := chronicle.machine.recording?.map (Recording.mk chronicle.machine)
  (chronicle.machine.step.1,
    { machine := chronicle.machine.step.2
      recordings := chronicle.recordings ++ recording?.toList })

/-- The chronicle of a machine after the steps of a run. -/
def stepMany : Nat → Chronicle → Chronicle
  | 0, chronicle => chronicle
  | budget + 1, chronicle =>
    if chronicle.machine.registers.halted then chronicle
    else
      match chronicle.step with
      | (.completed _, moved) => stepMany budget moved
      | (.waiting, moved) | (.refused _, moved) => moved

/-- A machine that is loaded or reset begins a new chronicle, unless that is refused. -/
def restarted {ε : Type} (chronicle : Chronicle) : Except ε Unit × Machine → Chronicle
  | (.ok (), machine) => { machine }
  | (.error _, machine) => { chronicle with machine }

/-- The chronicle of a machine after an event. -/
def apply (event : Event) (chronicle : Chronicle) : Chronicle :=
  match event with
  | .loadImage image => chronicle.restarted (chronicle.machine.loadImage image)
  | .loadSource source => chronicle.restarted (chronicle.machine.loadSource source)
  | .reset => chronicle.restarted chronicle.machine.reset
  | .step => chronicle.step.2
  | .run limit => stepMany (limit - chronicle.machine.registers.cycleCount).toNat chronicle
  | _ => { chronicle with machine := event.apply chronicle.machine }

/-- The chronicle of a machine after a sequence of events. -/
def after (chronicle : Chronicle) : List Event → Chronicle
  | [] => chronicle
  | event :: rest => (chronicle.apply event).after rest

/-- What is in a chronicle after a sleep, given its duration, the world and all that was before. -/
abbrev Notes (σ : Type) :=
  Float → σ → Chronicle → List Recording

/-- The chronicle of a machine after at most some number of passes of the realtime loop. -/
def passes {σ ε : Type} (host : Host σ ε) (notes : Notes σ) (pace : Pace) :
    Nat → Schedule → σ → Chronicle → Chronicle
  | 0, _, _, chronicle => chronicle
  | fuel + 1, schedule, world, chronicle =>
    if chronicle.machine.stopRequested then chronicle
    else
      let (now, ticks, world) := host.look pace world
      match (chronicle.machine.tickMany ticks).pass pace schedule now with
      | (.error _, _, machine) | (.ok .leave, _, machine) => { chronicle with machine }
      | (.ok (.sleep seconds), schedule, machine) =>
        let recordings := notes seconds world { chronicle with machine }
        match host.sleep seconds world machine with
        | (.error _, _, machine) => { machine, recordings }
        | (.ok (), world, machine) =>
          passes host notes pace fuel schedule world { machine, recordings }
      | (.ok .issue, schedule, machine) =>
        match { chronicle with machine }.step with
        | (.refused _, moved) => moved
        | (_, moved) => passes host notes pace fuel (moved.machine.issued schedule) world moved

/-- The chronicle of a machine after a realtime run. -/
def runRealtime {σ ε : Type} (host : Host σ ε) (notes : Notes σ) (pace : Pace) (fuel : Nat)
    (world : σ) (chronicle : Chronicle) : Chronicle :=
  let (start, world) := host.clock world
  let schedule : Schedule := { start, last := start, next := start }
  let entered := { chronicle with machine := chronicle.machine.enterRealtime pace }
  let left := passes host notes pace fuel schedule world entered
  let (_, world, _) := Machine.passes host pace fuel schedule world entered.machine
  let (ticks, _) := host.meanwhile pace world
  { left with machine := (left.machine.tickMany ticks).leaveRealtime pace }

/--
The chronicles that come of one chronicle by events and realtime runs.

The host's sleeps have chronicles of their own, which go on with the one before.
-/
inductive Continues : Chronicle → Chronicle → Prop where
  /-- Nothing has happened yet. -/
  | refl (chronicle : Chronicle) : Continues chronicle chronicle
  /-- An event happens. -/
  | event {first last : Chronicle} (event : Event) :
    Continues first last → Continues first (last.apply event)
  /-- A realtime run happens, by any clock and for any number of passes. -/
  | realtime {σ ε : Type} {first last : Chronicle} (host : Host σ ε) (notes : Notes σ)
    (pace : Pace) (passes : Nat) (world : σ)
    (sleeps : ∀ seconds world chronicle, Continues chronicle
      { machine := (host.sleep seconds world chronicle.machine).2.2
        recordings := notes seconds world chronicle }) :
    Continues first last → Continues first (last.runRealtime host notes pace passes world)

/-- The chronicles of the machines with the given settings, from power-on. -/
def Kept (config : Config) (chronicle : Chronicle) : Prop :=
  ∃ random, Continues { machine := .withRandom config random } chronicle

end Chronicle

namespace Chronicle

/-! ### A chronicle changes nothing -/

/-- The machine of a chronicle goes through the steps of its run. -/
theorem stepMany_machine (budget : Nat) (chronicle : Chronicle) :
    (stepMany budget chronicle).machine = (Machine.stepMany budget chronicle.machine).2 := by
  -- Both take the same steps, and end at the same one.
  induction budget generalizing chronicle with
  | zero => rfl
  | succ budget ih =>
    unfold stepMany Machine.stepMany
    split
    · rfl
    · simp only [step]
      rcases chronicle.machine.step with ⟨entry | - | fault, moved⟩
      · exact ih _
      · rfl
      · rfl

/-- A run leaves the machine that its steps leave. -/
theorem run_stepMany (machine : Machine) (limit : Int) :
    (machine.run limit).2 =
      (Machine.stepMany (limit - machine.registers.cycleCount).toNat machine).2 := by
  -- The verdict of a run does not change the machine that it leaves.
  unfold Machine.run
  split
  · rename_i stepped
    rw [stepped]
  · rename_i stepped
    rw [stepped]
    split <;> rfl

/-- The machine of a chronicle goes through its events. -/
theorem apply_machine (event : Event) (chronicle : Chronicle) :
    (chronicle.apply event).machine = event.apply chronicle.machine := by
  -- The recordings are read by nothing, so the machine goes on as without them.
  have loads : ∀ {ε : Type} (attempt : Except ε Unit × Machine),
      (chronicle.restarted attempt).machine = attempt.2 := by
    rintro ε ⟨refusal | ⟨⟩, left⟩ <;> rfl
  cases event with
  | loadImage | loadSource | reset => exact loads _
  | run limit => exact (stepMany_machine _ chronicle).trans (run_stepMany _ limit).symm
  | _ => rfl

/-- The machine of a chronicle goes through the passes of its realtime loop. -/
theorem passes_machine {σ ε : Type} (host : Host σ ε) (notes : Notes σ) (pace : Pace) (fuel : Nat)
    (schedule : Schedule) (world : σ) (chronicle : Chronicle) :
    (passes host notes pace fuel schedule world chronicle).machine =
      (Machine.passes host pace fuel schedule world chronicle.machine).2.2 := by
  -- Both take the same passes, in each of which the machines are the same.
  induction fuel generalizing schedule world chronicle with
  | zero => rfl
  | succ fuel ih =>
    rcases look : host.look pace world with ⟨now, ticks, later⟩
    simp only [passes, Machine.passes_succ, look]
    split
    · rfl
    · rcases (chronicle.machine.tickMany ticks).pass pace schedule now with
        ⟨fault | - | seconds | -, next, left⟩
      · rfl
      · rfl
      · dsimp only
        rcases host.sleep seconds later left with ⟨reason | ⟨⟩, awake, after⟩
        · rfl
        · exact ih _ _ _
      · simp only [step]
        rcases left.step with ⟨entry | - | fault, after⟩
        · exact ih _ _ _
        · exact ih _ _ _
        · rfl

/-- The machine of a chronicle goes through its realtime runs. -/
theorem runRealtime_machine {σ ε : Type} (host : Host σ ε) (notes : Notes σ) (pace : Pace)
    (fuel : Nat) (world : σ) (chronicle : Chronicle) :
    (chronicle.runRealtime host notes pace fuel world).machine =
      (chronicle.machine.runRealtime host pace fuel world).2.2 := by
  simp only [runRealtime, Machine.runRealtime_eq, passes_machine]

/-- Every history has a chronicle, which goes on with the one before. -/
theorem continues_of_evolves {allowed : Event → Prop} {first last : Machine}
    (history : Evolves allowed first last) (before : List Recording) :
    ∃ recordings, Continues { machine := first, recordings := before }
      { machine := last, recordings } := by
  induction history generalizing before with
  | refl => exact ⟨before, .refl _⟩
  | @event first last event _ _ ih =>
    obtain ⟨recordings, continues⟩ := ih before
    refine ⟨(apply event { machine := last, recordings }).recordings, ?_⟩
    rw [← apply_machine event { machine := last, recordings }]
    exact continues.event event
  | @realtime σ ε first last host pace passes world _ _ sleeps ih =>
    obtain ⟨recordings, continues⟩ := ih before
    -- The sleeps are chronicled one by one, and for any chronicle before them.
    have notes : ∀ seconds world (chronicle : Chronicle), ∃ recordings, Continues chronicle
        { machine := (host.sleep seconds world chronicle.machine).2.2, recordings } := by
      intro seconds world chronicle
      exact sleeps seconds world chronicle.machine chronicle.recordings
    let chosen : Notes σ := fun seconds world chronicle => (notes seconds world chronicle).choose
    refine ⟨(runRealtime host chosen pace passes world { machine := last, recordings }).recordings,
      ?_⟩
    rw [← runRealtime_machine host chosen pace passes world { machine := last, recordings }]
    exact continues.realtime host chosen pace passes world fun seconds world chronicle =>
      (notes seconds world chronicle).choose_spec

/-- The machine of a chronicle from power-on is a reachable one. -/
theorem Continues.evolves {first last : Chronicle} (continues : Continues first last) :
    Evolves (fun _ => True) first.machine last.machine := by
  induction continues with
  | refl => exact .refl _
  | event event _ ih =>
    rw [apply_machine]
    exact .event event trivial ih
  | realtime host notes pace passes world _ _ sleeps ih =>
    rw [runRealtime_machine]
    -- A sleep does to a machine what it does to any chronicle of the machine.
    exact .realtime host pace passes world
      (fun seconds world machine => sleeps seconds world { machine }) ih

/-- The reachable machines are those of which a chronicle was kept. -/
theorem reachable_iff_kept {config : Config} {machine : Machine} :
    machine.Reachable config ↔
      ∃ chronicle : Chronicle, chronicle.Kept config ∧ chronicle.machine = machine := by
  -- Every history is kept in some chronicle, and a chronicle tells a history.
  constructor
  · rintro ⟨random, history⟩
    obtain ⟨recordings, continues⟩ := continues_of_evolves history []
    exact ⟨_, ⟨random, continues⟩, rfl⟩
  · rintro ⟨chronicle, ⟨random, continues⟩, rfl⟩
    exact ⟨random, continues.evolves⟩

/-- A chronicle goes on through a sequence of events. -/
theorem Continues.after {first last : Chronicle} (continues : Continues first last)
    (events : List Event) : Continues first (last.after events) := by
  -- Each event is put behind the ones before it.
  induction events generalizing last with
  | nil => exact continues
  | cons event rest ih => exact ih (continues.event event)

end Chronicle

end Chip8
