import Chip8.Proofs.CommandLine.KeyDelivery
import Chip8.Proofs.Machine.Run

/-!
The key list of a headless command line session.

The session runs its machine, and runs it again after each key that it taps for a pending wait.
Every wait that ends gets the next key of the list, because a run takes a key before it can come to
the next wait.
-/

namespace Chip8

namespace Machine

variable {config : Config} {machine : Machine}

/-- The keys that end waits in a sequence are those of its beginning and those of what follows. -/
theorem deliveries_append (machine : Machine) (first second : List Event) :
    machine.deliveries (first ++ second) =
      machine.deliveries first ++ (machine.after first).deliveries second := by
  rw [deliveries, results_append, List.filterMap_append]
  rfl

/-- Steps deliver what is queued for a wait, all of it in the first one. -/
theorem Ready.steps {untaken : Bool} (ready : machine.Ready untaken) (sound : machine.Sound config)
    (count : Nat) :
    machine.deliveries (Event.steps count) ++
        (machine.after (Event.steps count)).board.keypad.queue = machine.board.keypad.queue ∧
      (0 < count → (machine.after (Event.steps count)).board.keypad.queue = []) := by
  induction count generalizing machine untaken with
  | zero => exact ⟨rfl, fun some => absurd some (Nat.lt_irrefl 0)⟩
  | succ count ih =>
    -- Behind the first step the queue is empty, so nothing is left for the others.
    obtain ⟨delivered, empty⟩ := ready.step sound
    obtain ⟨none, -⟩ := ih (Ready.of_empty empty false) sound.step
    rw [empty] at none
    obtain ⟨nothing, taken⟩ := List.append_eq_nil_iff.mp none
    have first : (Event.step.delivered? machine).toList = machine.board.keypad.queue := delivered
    rw [Event.steps, List.replicate_succ, deliveries_cons, after_cons, first]
    change machine.board.keypad.queue ++ machine.step.2.deliveries (Event.steps count) ++
      (machine.step.2.after (Event.steps count)).board.keypad.queue = _ ∧
      (_ → (machine.step.2.after (Event.steps count)).board.keypad.queue = [])
    rw [nothing, taken, List.append_nil, List.append_nil]
    exact ⟨rfl, fun _ => rfl⟩

/-- Steps neither press nor release a key. -/
theorem held_steps (sound : machine.Sound config) (count : Nat) :
    (machine.after (Event.steps count)).board.keypad.held = machine.board.keypad.held := by
  -- No single step does.
  induction count generalizing machine with
  | zero => rfl
  | succ count ih => exact (ih sound.step).trans (step_held sound)

end Machine

namespace Session

/-! ### The loop of a headless session -/

/-- What the loop of a headless session does. -/
structure Watch where
  /-- The number of runs. -/
  runs : Nat
  /-- The steps of the runs, and the taps between them. -/
  events : List Event
  /-- The keys that were not fed. -/
  unfed : List Key

/-- The steps of a run up to the cycle limit of the settings. -/
def runSteps (machine : Machine) : List Event :=
  Event.steps (machine.runResults machine.config.maxCycles).length

/-- Runs, and runs again after each key that the machine waits for, and tells what was done. -/
def watchHeadless (machine : Machine) (keys : List Key) : (RunEnd × Machine) × Watch :=
  match machine.run machine.config.maxCycles with
  | (.error fault, left) => ((.faulted fault, left), ⟨1, runSteps machine, keys⟩)
  | (.ok (), left) =>
    match keys with
    | [] => ((.finished, left), ⟨1, runSteps machine, []⟩)
    | key :: rest =>
      if left.registers.awaitingKey then
        let (result, later) := watchHeadless (tapKey left key) rest
        (result, ⟨later.runs + 1, runSteps machine ++ taps key ++ later.events, later.unfed⟩)
      else ((.finished, left), ⟨1, runSteps machine, key :: rest⟩)

/-- The turns of the loop of a headless session, from a machine and a list of keys to the end. -/
inductive Turns : Machine → List Key → RunEnd × Machine → Watch → Prop where
  /-- A run is broken off by a fault or by the cycle limit. -/
  | broken {machine keys fault left}
    (ran : machine.run machine.config.maxCycles = (.error fault, left)) :
    Turns machine keys (.faulted fault, left) ⟨1, runSteps machine, keys⟩
  /-- The machine does not wait for a key, or there is none. -/
  | ended {machine keys left} (ran : machine.run machine.config.maxCycles = (.ok (), left))
    (enough : left.registers.mode = .awaitingKey → keys = []) :
    Turns machine keys (.finished, left) ⟨1, runSteps machine, keys⟩
  /-- The machine waits for a key, gets the next one, and is run again. -/
  | fed {machine key keys left result watch}
    (ran : machine.run machine.config.maxCycles = (.ok (), left))
    (awaiting : left.registers.mode = .awaitingKey)
    (rest : Turns (tapKey left key) keys result watch) :
    Turns machine (key :: keys) result
      ⟨watch.runs + 1, runSteps machine ++ taps key ++ watch.events, watch.unfed⟩

variable {config : Config} {machine : Machine} {keys : List Key} {result : RunEnd × Machine}
  {watch : Watch}

/-- Telling what was done changes nothing in the loop. -/
theorem watchHeadless_fst (machine : Machine) (keys : List Key) :
    (watchHeadless machine keys).1 = runHeadless machine keys := by
  -- Both loops make the same decisions, turn by turn.
  induction keys generalizing machine with
  | nil =>
    unfold watchHeadless runHeadless
    rcases machine.run machine.config.maxCycles with ⟨fault | ⟨⟩, left⟩ <;> rfl
  | cons key rest ih =>
    unfold watchHeadless runHeadless
    rcases machine.run machine.config.maxCycles with ⟨fault | ⟨⟩, left⟩
    · rfl
    · dsimp only
      split
      · exact ih (tapKey left key)
      · rfl

/-- The loop takes turns. -/
theorem watchHeadless_turns (machine : Machine) (keys : List Key) :
    Turns machine keys (watchHeadless machine keys).1 (watchHeadless machine keys).2 := by
  -- Each turn is one of the three: broken off, ended, or followed by another.
  induction keys generalizing machine with
  | nil =>
    unfold watchHeadless
    rcases ran : machine.run machine.config.maxCycles with ⟨fault | ⟨⟩, left⟩
    · exact .broken ran
    · exact .ended ran fun _ => rfl
  | cons key rest ih =>
    unfold watchHeadless
    rcases ran : machine.run machine.config.maxCycles with ⟨fault | ⟨⟩, left⟩
    · exact .broken ran
    · dsimp only
      split
      · rename_i awaiting
        exact .fed ran (by simpa [Registers.awaitingKey] using awaiting) (ih (tapKey left key))
      · -- A run that ended without a wait is the last one.
        rename_i settled
        refine .ended ran fun awaiting => absurd ?_ settled
        rw [Registers.awaitingKey, awaiting]
        rfl

/-- There is one run more than keys were fed, which are the first ones of the list. -/
theorem Turns.counted (turns : Turns machine keys result watch) :
    1 ≤ watch.runs ∧ watch.runs ≤ keys.length + 1 ∧ watch.unfed = keys.drop (watch.runs - 1) := by
  induction turns with
  | broken | ended => exact ⟨Nat.le_refl 1, Nat.le_add_left 1 _, rfl⟩
  | @fed _ key keys _ _ watch _ _ _ ih =>
    obtain ⟨some, few, unfed⟩ := ih
    refine ⟨Nat.le_add_left 1 _, Nat.succ_le_succ few, ?_⟩
    -- One run more means one key less.
    have behind : watch.runs + 1 - 1 = (watch.runs - 1) + 1 := by omega
    rw [unfed, behind, List.drop_succ_cons]

/-- A run does to a machine what its steps do. -/
theorem after_runSteps {verdict : Except Fault Unit} {left : Machine}
    (sound : machine.Sound config)
    (ran : machine.run machine.config.maxCycles = (verdict, left)) :
    machine.after (runSteps machine) = left := by
  -- A run is the iteration of its steps.
  have steps := (Machine.run_runsTo sound machine.config.maxCycles).1.steps.2
  rw [ran] at steps
  exact steps

/-- The next turn begins with what the steps of a run and a tap have left. -/
theorem tapKey_of_ran {verdict : Except Fault Unit} {left : Machine} (sound : machine.Sound config)
    (ran : machine.run machine.config.maxCycles = (verdict, left)) (key : Key) :
    tapKey left key = machine.after (runSteps machine ++ taps key) := by
  rw [Machine.after_append, after_runSteps sound ran, tapKey_eq]

/-- The next turn begins with a sound machine. -/
theorem sound_of_ran {verdict : Except Fault Unit} {left : Machine} (sound : machine.Sound config)
    (ran : machine.run machine.config.maxCycles = (verdict, left)) (key : Key) :
    (tapKey left key).Sound config := by
  rw [tapKey_of_ran sound ran]
  exact sound.after _

/-- The loop does to a machine what its events do. -/
theorem Turns.after_events (turns : Turns machine keys result watch)
    (sound : machine.Sound config) : result.2 = machine.after watch.events := by
  -- Each turn is the steps of one call and the tap behind them.
  induction turns with
  | broken ran | ended ran => exact (after_runSteps sound ran).symm
  | @fed machine key _ left _ watch ran _ _ ih =>
    calc
      _ = (tapKey left key).after watch.events := ih (sound_of_ran sound ran key)
      _ = machine.after (runSteps machine ++ taps key ++ watch.events) := by
        rw [tapKey_of_ran sound ran, ← Machine.after_append]

/-- The loop ends at a machine that waits for a key only if there is none. -/
theorem Turns.unfed_of_awaiting (turns : Turns machine keys result watch)
    (sound : machine.Sound config) (awaiting : result.2.registers.mode = .awaitingKey) :
    watch.unfed = [] := by
  induction turns with
  | @broken machine keys fault left ran =>
    -- A run that is broken off leaves a machine that has halted, or still runs.
    have ends := (Machine.run_runsTo sound machine.config.maxCycles).2
    rw [ran] at ends
    cases ends with
    | faulted _ _ halted =>
      rw [halted] at awaiting
      cases awaiting
    | exhausted _ running =>
      rw [running] at awaiting
      cases awaiting
  | ended _ enough => exact enough awaiting
  | fed ran _ _ ih => exact ih (sound_of_ran sound ran _) awaiting

/-! ### Keys that are delivered -/

/-- A tap moves nothing but the keypad. -/
theorem after_taps (machine : Machine) (key : Key) :
    ∃ keypad, machine.after (taps key) = machine.withKeypad keypad := by
  -- A press and a release change the keypad alone.
  rw [taps, Machine.after_cons, Machine.after_cons, Machine.after_nil, Machine.apply_release,
    Machine.apply_press]
  exact ⟨_, rfl⟩

/-- A tap for a wait is queued, if all keys are up and the queue is empty. -/
theorem queued_of_taps (sound : machine.Sound config) (key : Key)
    (up : machine.board.keypad.held = Keypad.idle.held) (empty : machine.board.keypad.queue = [])
    (awaiting : machine.registers.mode = .awaitingKey) :
    (machine.after (taps key)).board.keypad.queue = [key] ∧
      (machine.after (taps key)).board.keypad.held = Keypad.idle.held := by
  have feeds : Feeds [key] machine (taps key) [] := feeds_taps key up awaiting
  have fresh : machine.freshPresses (taps key) = [key] := by
    rw [← List.append_nil (machine.freshPresses _), ← feeds.taps]
  have plays : ∀ event ∈ taps key, event.isPlay = true := by
    simp only [taps, List.forall_mem_cons]
    exact ⟨rfl, rfl, List.forall_mem_nil _⟩
  -- The press is the only one, so it is neither lost nor delivered before the next step.
  obtain ⟨kept, -⟩ :=
    Machine.deliveries_spaced sound plays feeds.asked (.of_empty empty false) rfl
  rw [empty, fresh] at kept
  exact ⟨kept, feeds.up⟩

/-- A run that cannot go on takes no step. -/
theorem runSteps_of_finished (sound : machine.Sound config)
    (finished : ¬machine.GoesOn machine.config.maxCycles) : runSteps machine = [] := by
  -- Runs are determined by where they begin, and this one may stop at once.
  obtain ⟨none, -⟩ := (Machine.run_runsTo sound machine.config.maxCycles).1.unique (.rest finished)
  rw [runSteps, ← none]
  rfl

/-- A run that takes no step cannot go on. -/
theorem finished_of_runSteps (sound : machine.Sound config) (none : runSteps machine = []) :
    ¬machine.GoesOn machine.config.maxCycles := by
  -- Only a run that cannot go on has no results.
  have runs := (Machine.run_runsTo sound machine.config.maxCycles).1
  have empty : machine.runResults machine.config.maxCycles = [] :=
    List.eq_nil_of_length_eq_zero (List.replicate_eq_nil_iff _ |>.mp none)
  rw [empty] at runs
  generalize (machine.run machine.config.maxCycles).2 = left at runs
  cases runs with
  | rest finished => exact finished

/-- When the cycle limit is reached, keys are tapped but none is delivered any more. -/
theorem Turns.exhausted (turns : Turns machine keys result watch) (sound : machine.Sound config)
    (finished : ¬machine.GoesOn machine.config.maxCycles) :
    machine.deliveries watch.events = [] := by
  induction turns with
  | broken | ended => rw [runSteps_of_finished sound finished]; rfl
  | @fed machine key _ left _ watch ran _ _ ih =>
    -- The run has left the machine as it was, and a tap does not let it go on.
    have none := runSteps_of_finished sound finished
    have next : tapKey left key = machine.after (taps key) := by
      rw [tapKey_of_ran sound ran, none, List.nil_append]
    obtain ⟨keypad, tapped⟩ := after_taps machine key
    have later := ih (sound_of_ran sound ran key) (by rw [next, tapped]; exact finished)
    rw [next] at later
    rw [none, List.nil_append, Machine.deliveries_append, later]
    rfl

/-- The keys that are delivered are what was queued and the first keys of the list. -/
theorem Turns.delivers (turns : Turns machine keys result watch) (sound : machine.Sound config)
    (ready : machine.Ready true) (up : machine.board.keypad.held = Keypad.idle.held) :
    machine.deliveries watch.events <+: machine.board.keypad.queue ++ keys := by
  induction turns with
  | @broken machine _ _ _ ran | @ended machine _ _ ran =>
    obtain ⟨all, -⟩ := ready.steps sound (machine.runResults machine.config.maxCycles).length
    rw [← all, List.append_assoc]
    exact List.prefix_append _ _
  | @fed machine key keys left _ watch ran awaiting rest ih =>
    by_cases none : runSteps machine = []
    · -- The limit was reached when the wait began.
      have whole := Turns.fed ran awaiting rest
      rw [whole.exhausted sound (finished_of_runSteps sound none)]
      exact List.nil_prefix
    · -- The run has taken all that was queued, so the next key is the only press of the next wait.
      have some : 0 < (machine.runResults machine.config.maxCycles).length := by
        refine Nat.pos_of_ne_zero fun zero => none ?_
        rw [runSteps, zero]
        rfl
      have steps := after_runSteps sound ran
      have moved : left.Sound config := steps ▸ sound.after (runSteps machine)
      obtain ⟨all, taken⟩ := ready.steps sound _
      have empty : left.board.keypad.queue = [] := steps ▸ taken some
      have stillUp : left.board.keypad.held = Keypad.idle.held := by
        rw [← steps, runSteps, Machine.held_steps sound, up]
      obtain ⟨queued, released⟩ := queued_of_taps moved key stillUp empty awaiting
      obtain ⟨keypad, tapped⟩ := after_taps left key
      rw [tapKey_eq] at ih
      have next : (left.after (taps key)).Ready true :=
        ⟨by rw [queued]; exact Nat.le_refl 1, fun _ => by rw [tapped]; exact awaiting, nofun⟩
      have behind := ih (moved.after (taps key)) next released
      rw [queued, List.singleton_append] at behind
      have first : machine.deliveries (runSteps machine) = machine.board.keypad.queue := by
        rw [← all, taken some, List.append_nil]
        rfl
      have tap : left.deliveries (taps key) = [] := rfl
      -- What the run took, what the tap delivers, and what comes behind are put together.
      rw [List.append_assoc, Machine.deliveries_append, steps, Machine.deliveries_append, first,
        tap, List.nil_append]
      exact (List.prefix_append_right_inj _).mpr behind

/-- What the loop of a headless session does with a list of keys. -/
structure Watch.Orderly (watch : Watch) (started : Machine) (keys : List Key)
    (result : RunEnd × Machine) : Prop where
  /-- The machine that is left is the one that the events leave. -/
  events : result.2 = started.after watch.events
  /-- There is at most one run for each key, and one more. -/
  runs : watch.runs ≤ keys.length + 1
  /-- Between two runs one key is fed, in the order of the list. -/
  unfed : watch.unfed = keys.drop (watch.runs - 1)
  /-- A step that ends a wait stores its key in the register of the wait. -/
  fills : ∀ outcome ∈ started.course watch.events, Fills outcome
  /-- The waits that end get the first keys of the list, one after the other. -/
  delivered : started.deliveries watch.events <+: keys
  /-- The machine is left waiting for a key only if no key is left. -/
  awaiting : result.2.registers.mode = .awaitingKey → watch.unfed = []

/--
A headless session feeds its keys to the waits in order.

Whatever program is loaded, and whatever the cycle limit is, the loop of the session ends after one
run more than there are keys, at most.
The waits that end get the first keys of the list, the first wait the first key and so on, and the
machine is left in a wait only if all keys were fed.
-/
theorem headless_keys_in_order {config : Config} {chance : ByteSource} {source : Source}
    {file : List Char → Option (List Byte)} {started : Machine}
    (loaded : load (.new config chance) source file = .ok started) (keys : List Key) :
    (watchHeadless started keys).1 = runHeadless started keys ∧
      (watchHeadless started keys).2.Orderly started keys (runHeadless started keys) := by
  obtain ⟨image, done⟩ := load_done loaded
  obtain ⟨memory, -, rfl⟩ := Machine.loadImage_eq_ok.mp done
  have sound := (Machine.Reachable.new config chance).sound.loaded image memory
  -- A machine at power-on has an idle keypad, which loading does not touch.
  have idle : ((Machine.new config chance).loaded image memory).board.keypad = Keypad.idle := rfl
  have empty := congrArg Keypad.queue idle
  have turns := watchHeadless_turns ((Machine.new config chance).loaded image memory) keys
  rw [watchHeadless_fst] at turns
  obtain ⟨-, runs, unfed⟩ := turns.counted
  have delivered := turns.delivers sound (.of_empty empty true) (by rw [idle])
  rw [empty, Keypad.idle, List.nil_append] at delivered
  refine ⟨watchHeadless_fst _ keys, ?_⟩
  exact
    { events := turns.after_events sound
      runs
      unfed
      fills := Machine.course_fills sound _
      delivered
      awaiting := turns.unfed_of_awaiting sound }

/-- Settings with a limit that is reached when the second wait of a program begins. -/
def threeCycles : Config :=
  { Config.standard with maxCycles := 3 }

/-- The machine that has loaded the program that waits for two keys. -/
def waitingTwice : Machine :=
  (load (.new threeCycles (.seeded 0)) twoWaits fun _ => none).toOption.getD
    (.new threeCycles (.seeded 0))

/-- At the limit the second wait gets no key, though all keys of the list are fed. -/
theorem headless_keys_in_order_limited :
    (watchHeadless waitingTwice [5, 5, 6]).2.runs = 4 ∧
      waitingTwice.deliveries (watchHeadless waitingTwice [5, 5, 6]).2.events = [5] ∧
      (runHeadless waitingTwice [5, 5, 6]).2.registers.mode = .awaitingKey ∧
      (watchHeadless waitingTwice [5, 5, 6]).2.unfed = [] ∧
      (watchHeadless waitingTwice [5, 5, 6]).2.Orderly waitingTwice [5, 5, 6]
        (runHeadless waitingTwice [5, 5, 6]) := by
  -- The limit ends the last call while the program waits again, with all keys used up.
  have answers : (load (.new threeCycles (.seeded 0)) twoWaits fun _ => none).isOk = true := by
    decide +kernel
  have loaded : load (.new threeCycles (.seeded 0)) twoWaits (fun _ => none) = .ok waitingTwice :=
    eq_ok_getD answers _
  obtain ⟨-, orderly⟩ := headless_keys_in_order loaded [5, 5, 6]
  have awaiting : (runHeadless waitingTwice [5, 5, 6]).2.registers.mode = .awaitingKey := by
    decide +kernel
  exact ⟨by decide +kernel, by decide +kernel, awaiting, orderly.awaiting awaiting, orderly⟩

end Session

end Chip8
