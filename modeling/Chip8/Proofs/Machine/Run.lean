import Chip8.Proofs.Machine.Sequence
import Chip8.Proofs.Machine.Verdict

/-!
Headless runs as steps in a row.

A run looks at the count of cycles before each step, and its bound is the distance of that count to
the limit: both come to the same, because exactly the completed steps count a cycle.
A run that was cut short can therefore be taken up again as if it had never been cut.
-/

namespace Chip8

/-- Some number of steps in a row. -/
def Event.steps (count : Nat) : List Event :=
  List.replicate count .step

/-- The fault by which a step was refused, if it was. -/
def StepResult.fault? : StepResult → Option Fault
  | .refused fault => some fault
  | .completed _ | .waiting => none

namespace Machine

/-- A run goes on: the machine has not halted, and its cycles have not reached the limit. -/
def GoesOn (limit : Int) (machine : Machine) : Prop :=
  machine.registers.mode ≠ .halted ∧ machine.registers.cycleCount < limit

/--
The loop of a run, from a machine to the one that it leaves, with the results of its steps.

Before each step the loop looks at the mode and at the count of cycles, and behind each step at
what has come of it.
-/
inductive RunsTo (limit : Int) : Machine → List StepResult → Machine → Prop where
  /-- The loop is not entered again. -/
  | rest {machine} (finished : ¬machine.GoesOn limit) : RunsTo limit machine [] machine
  /-- Behind a completed cycle the loop looks again. -/
  | cycle {machine moved last entry results} (goes : machine.GoesOn limit)
    (stepped : machine.step = (.completed entry, moved)) (more : RunsTo limit moved results last) :
    RunsTo limit machine (.completed entry :: results) last
  /-- A poll that finds no key ends the loop. -/
  | wait {machine left} (goes : machine.GoesOn limit) (stepped : machine.step = (.waiting, left)) :
    RunsTo limit machine [.waiting] left
  /-- A fault ends the loop. -/
  | fault {machine left cause} (goes : machine.GoesOn limit)
    (stepped : machine.step = (.refused cause, left)) : RunsTo limit machine [.refused cause] left

/-- How the steps of a run end, of which some number may complete a cycle. -/
def stepResults : Nat → Machine → List StepResult
  | 0, _ => []
  | budget + 1, machine =>
    if machine.registers.halted then []
    else
      match machine.step with
      | (.completed entry, moved) => .completed entry :: stepResults budget moved
      | (.waiting, _) => [.waiting]
      | (.refused fault, _) => [.refused fault]

/-- How the steps of a run end, up to its limit. -/
def runResults (machine : Machine) (limit : Int) : List StepResult :=
  stepResults (limit - machine.registers.cycleCount).toNat machine

/-- The verdict on a run, given the results of its steps and the machine that it leaves. -/
inductive RunEnds (limit : Int) (results : List StepResult) (left : Machine) :
    Except Fault Unit → Prop where
  /-- The fault of the last step is passed on. -/
  | faulted {fault : Fault} (guest : fault.IsGuest)
    (last : results.getLast? = some (.refused fault)) (halted : left.registers.mode = .halted) :
    RunEnds limit results left (.error fault)
  /-- No step was refused, and the machine still runs when its cycles have reached the limit. -/
  | exhausted (unrefused : ∀ result ∈ results, result.fault? = none)
    (running : left.registers.mode = .running) (reached : limit ≤ left.registers.cycleCount) :
    RunEnds limit results left (.error (.cycleLimit limit))
  /-- No step was refused, and the machine has halted or waits for a key. -/
  | settled (unrefused : ∀ result ∈ results, result.fault? = none)
    (rests : left.registers.mode = .halted ∨ left.registers.mode = .awaitingKey) :
    RunEnds limit results left (.ok ())

/-- What a run with a limit comes to, given the results of its steps. -/
structure BoundedRun (limit : Int) (machine : Machine) (results : List StepResult)
    (verdict : Except Fault Unit) (left : Machine) : Prop where
  /-- The loop takes these steps and leaves this machine. -/
  course : RunsTo limit machine results left
  /-- It could not have taken any others, or left another machine. -/
  only : ∀ others other, RunsTo limit machine others other → others = results ∧ other = left
  /-- As many single steps end alike, and leave the same machine. -/
  steps : machine.results (Event.steps results.length) = results ∧
    machine.after (Event.steps results.length) = left
  /-- Steps complete cycles, as many as the limit leaves at most, but for one that ends the run. -/
  cycles : ∃ (entries : List TraceEntry) (ending : Option StepResult),
    results = entries.map .completed ++ ending.toList ∧
      (entries.length : Int) ≤ max 0 (limit - machine.registers.cycleCount) ∧
      left.registers.cycleCount = machine.registers.cycleCount + entries.length ∧
      ∀ result ∈ ending, result = .waiting ∨ ∃ fault, result = .refused fault
  /-- The run ends in one of three ways that exclude each other. -/
  ends : RunEnds limit results left verdict
  /-- It runs into its limit exactly if it leaves a running machine. -/
  exhausts : verdict = .error (.cycleLimit limit) ↔ left.registers.mode = .running

variable {config : Config} {limit : Int} {machine left : Machine} {results : List StepResult}

/-! ### The loop -/

/-- Two courses of one loop are the same. -/
theorem RunsTo.unique {others : List StepResult} {other : Machine}
    (runs : RunsTo limit machine results left) (again : RunsTo limit machine others other) :
    others = results ∧ other = left := by
  -- At each look the loop has one way to go on, which both courses take.
  induction runs generalizing others with
  | rest finished =>
    cases again with
    | rest => exact ⟨rfl, rfl⟩
    | cycle goes | wait goes | fault goes => exact absurd goes finished
  | cycle goes stepped more ih =>
    cases again with
    | rest finished => exact absurd goes finished
    | cycle _ stepped' more' =>
      rw [stepped] at stepped'
      obtain ⟨same, rfl⟩ := Prod.mk.inj stepped'
      -- The same step leaves the same machine, from which the courses agree.
      obtain ⟨rfl, rfl⟩ := ih more'
      exact ⟨congrArg (· :: _) same.symm, rfl⟩
    | wait _ stepped' | fault _ stepped' =>
      rw [stepped] at stepped'
      cases (Prod.mk.inj stepped').1
  | wait goes stepped =>
    cases again with
    | rest finished => exact absurd goes finished
    | wait _ stepped' =>
      rw [stepped] at stepped'
      exact ⟨rfl, (Prod.mk.inj stepped').2.symm⟩
    | cycle _ stepped' | fault _ stepped' =>
      rw [stepped] at stepped'
      cases (Prod.mk.inj stepped').1
  | fault goes stepped =>
    cases again with
    | rest finished => exact absurd goes finished
    | fault _ stepped' =>
      rw [stepped] at stepped'
      obtain ⟨same, rfl⟩ := Prod.mk.inj stepped'
      exact ⟨congrArg ([·]) same.symm, rfl⟩
    | cycle _ stepped' | wait _ stepped' =>
      rw [stepped] at stepped'
      cases (Prod.mk.inj stepped').1

/-- The steps of a loop are steps in a row. -/
theorem RunsTo.steps (runs : RunsTo limit machine results left) :
    machine.results (Event.steps results.length) = results ∧
      machine.after (Event.steps results.length) = left := by
  -- Each cycle or wait of the run is one step, and its result is the first of the others.
  induction runs with
  | rest => exact ⟨rfl, rfl⟩
  | cycle _ stepped _ ih =>
    obtain ⟨same, last⟩ := ih
    simp only [Event.steps] at same last
    simp [Event.steps, List.replicate_succ, Event.outcome?, Event.apply, stepped, same, last]
  | wait _ stepped | fault _ stepped =>
    simp [Event.steps, Event.outcome?, Event.apply, stepped]

/-- A loop completes no more cycles than its limit leaves, and at most one step more. -/
theorem RunsTo.cycles (sound : machine.Sound config) (runs : RunsTo limit machine results left) :
    ∃ (entries : List TraceEntry) (ending : Option StepResult),
      results = entries.map .completed ++ ending.toList ∧
        (entries.length : Int) ≤ max 0 (limit - machine.registers.cycleCount) ∧
        left.registers.cycleCount = machine.registers.cycleCount + entries.length ∧
        ∀ result ∈ ending, result = .waiting ∨ ∃ fault, result = .refused fault := by
  induction runs with
  | rest => exact ⟨[], none, rfl, by simp only [List.length_nil]; omega, by simp, by simp⟩
  | @cycle _ _ _ entry _ goes stepped _ ih =>
    -- The cycle brings the count one closer to the limit, which it had not reached.
    have counted := sound.step_completed stepped
    obtain ⟨entries, ending, rfl, few, count, ends⟩ := ih (sound.stepped stepped)
    obtain ⟨-, below⟩ := goes
    refine ⟨entry :: entries, ending, rfl, ?_, ?_, ends⟩
    · rw [List.length_cons]
      omega
    · rw [count, counted, List.length_cons]
      omega
  | wait _ stepped =>
    obtain ⟨rfl, -⟩ := sound.step_waiting stepped
    exact ⟨[], some .waiting, rfl, by simp only [List.length_nil]; omega, by simp, by simp⟩
  | fault _ stepped =>
    obtain ⟨-, count⟩ := sound.step_stopped stepped
    exact ⟨[], some _, rfl, by simp only [List.length_nil]; omega, by simp [count], by simp⟩

/-- A loop ends with a fault, or without one at a machine that waits or cannot go on. -/
theorem RunsTo.ends (sound : machine.Sound config) (runs : RunsTo limit machine results left) :
    (∃ fault : Fault, fault.IsGuest ∧ results.getLast? = some (.refused fault) ∧
        left.registers.mode = .halted) ∨
      (∀ result ∈ results, result.fault? = none) ∧
        (left.registers.mode = .awaitingKey ∨ ¬left.GoesOn limit) := by
  induction runs with
  | rest finished => exact .inr ⟨by simp, .inr finished⟩
  | cycle _ stepped _ ih =>
    rcases ih (sound.stepped stepped) with ⟨fault, guest, last, halted⟩ | ⟨unrefused, rests⟩
    · -- A last step is the last of all that came before it.
      exact .inl ⟨fault, guest, by rw [List.getLast?_cons, last]; rfl, halted⟩
    · exact .inr ⟨List.forall_mem_cons.mpr ⟨rfl, unrefused⟩, rests⟩
  | wait _ stepped =>
    obtain ⟨rfl, waiting⟩ := sound.step_waiting stepped
    exact .inr ⟨by simp [StepResult.fault?], .inl waiting⟩
  | fault goes stepped =>
    obtain ⟨halted, -⟩ := sound.step_stopped stepped
    exact .inl ⟨_, sound.step_guest goes.1 stepped, rfl, halted⟩

/-- A loop with a limit, and behind it one with a greater limit, are one loop with the greater. -/
theorem RunsTo.resume {later : Int} (sound : machine.Sound config) (greater : limit ≤ later)
    (runs : RunsTo limit machine results left) {others : List StepResult} {last : Machine}
    (again : RunsTo later left others last) : ∃ all, RunsTo later machine all last := by
  induction runs with
  | rest => exact ⟨others, again⟩
  | cycle goes stepped _ ih =>
    -- What is below the smaller limit is below the greater one.
    obtain ⟨all, whole⟩ := ih (sound.stepped stepped) again
    exact ⟨_, .cycle ⟨goes.1, by have := goes.2; omega⟩ stepped whole⟩
  | wait _ stepped =>
    -- The fruitless poll has changed nothing, so the second loop is the whole one.
    obtain ⟨rfl, -⟩ := sound.step_waiting stepped
    exact ⟨others, again⟩
  | fault goes stepped =>
    -- The machine has halted, so the second loop takes no step.
    obtain ⟨halted, -⟩ := sound.step_stopped stepped
    cases again with
    | rest => exact ⟨_, .fault ⟨goes.1, by have := goes.2; omega⟩ stepped⟩
    | cycle goes | wait goes | fault goes => exact absurd halted goes.1

/-! ### Runs -/

/-- As many steps as a limit leaves are a loop, whose last step says whether they were refused. -/
theorem stepMany_runsTo (sound : machine.Sound config) {budget : Nat}
    (room : (limit - machine.registers.cycleCount).toNat = budget) :
    RunsTo limit machine (stepResults budget machine) (stepMany budget machine).2 ∧
      (stepMany budget machine).1 =
        (stepResults budget machine).getLast?.bind StepResult.fault? := by
  induction budget generalizing machine with
  | zero =>
    -- The count has reached the limit.
    have finished : ¬machine.GoesOn limit := fun ⟨_, below⟩ => by omega
    exact ⟨.rest finished, rfl⟩
  | succ budget ih =>
    unfold stepMany stepResults
    by_cases halted : machine.registers.halted = true
    · rw [if_pos halted, if_pos halted]
      have mode : machine.registers.mode = .halted := by simpa [Registers.halted] using halted
      exact ⟨.rest fun goes => goes.1 mode, rfl⟩
    · rw [if_neg halted, if_neg halted]
      have goes : machine.GoesOn limit :=
        ⟨by simpa [Registers.halted] using halted, by omega⟩
      rcases stepped : machine.step with ⟨entry | - | fault, moved⟩
      · -- The cycle that was completed is one that the limit leaves no more.
        have counted : moved.registers.cycleCount = _ := sound.step_completed stepped
        have room : (limit - moved.registers.cycleCount).toNat = budget := by omega
        obtain ⟨runs, verdict⟩ := ih (sound.stepped stepped) room
        refine ⟨.cycle goes stepped runs, verdict.trans ?_⟩
        rw [List.getLast?_cons]
        cases (stepResults budget moved).getLast? <;> rfl
      · exact ⟨.wait goes stepped, rfl⟩
      · exact ⟨.fault goes stepped, rfl⟩

/-- A run is a loop, and its verdict is read off the last step and the machine that is left. -/
theorem run_runsTo (sound : machine.Sound config) (limit : Int) :
    RunsTo limit machine (machine.runResults limit) (machine.run limit).2 ∧
      RunEnds limit (machine.runResults limit) (machine.run limit).2 (machine.run limit).1 := by
  obtain ⟨runs, stopped⟩ := stepMany_runsTo sound
    (rfl : (limit - machine.registers.cycleCount).toNat = _)
  change RunsTo limit machine (machine.runResults limit) _ at runs
  change _ = (machine.runResults limit).getLast?.bind _ at stopped
  have ends := runs.ends sound
  unfold run
  rcases looped : stepMany (limit - machine.registers.cycleCount).toNat machine with ⟨stop, left⟩
  simp only [looped] at runs stopped ends
  rcases ends with ⟨fault, guest, last, halted⟩ | ⟨unrefused, rests⟩
  · -- The fault of the last step is the verdict.
    rw [last] at stopped
    obtain rfl : stop = some fault := stopped
    exact ⟨runs, .faulted guest last halted⟩
  · have none : stop = none := by
      rw [stopped]
      cases last : (machine.runResults limit).getLast? with
      | none => rfl
      | some result => exact unrefused result (List.mem_of_getLast? last)
    subst none
    dsimp only
    by_cases exhausted : left.registers.mode = .running ∧ limit ≤ left.registers.cycleCount
    · rw [if_pos exhausted]
      exact ⟨runs, .exhausted unrefused exhausted.1 exhausted.2⟩
    · rw [if_neg exhausted]
      refine ⟨runs, .settled unrefused ?_⟩
      -- A machine that runs on below its limit would have gone on.
      cases mode : left.registers.mode with
      | halted => exact .inl rfl
      | awaitingKey => exact .inr rfl
      | running =>
        rcases rests with waiting | finished
        · rw [mode] at waiting
          cases waiting
        · have below : left.registers.cycleCount < limit :=
            Int.not_le.mp fun reached => exhausted ⟨mode, reached⟩
          exact absurd ⟨by rw [mode]; decide, below⟩ finished

/-- A run with a limit is bounded. -/
theorem Sound.boundedRun (sound : machine.Sound config) (limit : Int) :
    machine.BoundedRun limit (machine.runResults limit) (machine.run limit).1
      (machine.run limit).2 := by
  obtain ⟨runs, ends⟩ := run_runsTo sound limit
  refine ⟨runs, ?_, runs.steps, runs.cycles sound, ends, ?_⟩
  · intro others other again
    exact runs.unique again
  · -- A guest program has no fault that could be taken for the limit of a run.
    generalize (machine.run limit).1 = verdict at ends
    cases ends with
    | faulted guest _ halted =>
      constructor
      · intro same
        cases same
        obtain ⟨_, _, other⟩ | ⟨_, _, other⟩ := guest <;> cases other
      · intro running
        rw [halted] at running
        cases running
    | exhausted _ running => exact ⟨fun _ => running, fun _ => rfl⟩
    -- A machine that came to rest is not running.
    | settled _ rests =>
      constructor
      · intro same
        cases same
      · intro running
        rcases rests with halted | waiting
        · rw [running] at halted
          cases halted
        · rw [running] at waiting
          cases waiting

/-- A run that was cut short and taken up again with a greater limit has never been cut. -/
theorem Sound.run_run (sound : machine.Sound config) {first second : Int}
    (ordered : first ≤ second) :
    ((machine.run first).2.run second).2 = (machine.run second).2 := by
  -- A run that was cut and resumed is the uncut one, as a run has one course only.
  have cut := (run_runsTo sound first).1
  have rest := (run_runsTo ((Sound.stable config).run first sound) second).1
  have uncut := (run_runsTo sound second).1
  obtain ⟨_, whole⟩ := cut.resume sound ordered rest
  exact (uncut.unique whole).2

/--
A run is a bounded iteration of the single step, and composes.

Its loop terminates, with as many cycles as its limit leaves at most, and in one of three ways; and
what it leaves does not depend on whether it was cut short on the way.
-/
theorem run_iterates_steps (reachable : machine.Reachable config) :
    (∀ limit, machine.BoundedRun limit (machine.runResults limit) (machine.run limit).1
        (machine.run limit).2) ∧
      ∀ first second, first ≤ second →
        ((machine.run first).2.run second).2 = (machine.run second).2 := by
  have sound := reachable.sound
  constructor
  · intro limit
    exact sound.boundedRun limit
  · intro first second ordered
    exact sound.run_run ordered

/-- A standard machine about to count once, and then to wait for a key. -/
def prompting : Machine :=
  Machine.standard.after [.loadImage [0x70, 0x01, 0xF1, 0x0A]]

/-- A limit of one cycle cuts the run short, and a limit of five leads it on to the wait. -/
theorem run_iterates_steps_prompting :
    (prompting.runResults 5).length = 3 ∧
      prompting.after (Event.steps 3) = (prompting.run 5).2 ∧
      (prompting.run 1).2.registers.mode = .running ∧
      (prompting.run 1).1 = .error (.cycleLimit 1) ∧
      ((prompting.run 1).2.run 5).2 = (prompting.run 5).2 := by
  -- The program runs on until it waits for a key, so a limit of one cuts it short.
  have reachable : prompting.Reachable .standard := Reachable.standard.after _
  obtain ⟨bounded, composes⟩ := run_iterates_steps reachable
  have three : (prompting.runResults 5).length = 3 := by decide +kernel
  have running : (prompting.run 1).2.registers.mode = .running := by decide +kernel
  have taken := (bounded 5).steps.2
  rw [three] at taken
  exact ⟨three, taken, running, (bounded 1).exhausts.mpr running, composes 1 5 (by decide)⟩

end Machine

end Chip8
