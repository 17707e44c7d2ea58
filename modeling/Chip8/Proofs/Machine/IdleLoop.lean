import Chip8.Proofs.Machine.Fault
import Chip8.Proofs.Machine.Halting
import Chip8.Proofs.Machine.Sounding

/-!
Halting in an idle loop, compared with looping on.

A machine that is told to halt in idle loops and one that is not take the same steps, until a jump
to its own address is executed.
From then on the second one repeats this jump, whatever timers and keys do meanwhile: they cannot
reach the word at the counter.
-/

namespace Chip8

/-- The register file, had it not halted but taken some more cycles that change nothing else. -/
def Registers.looped (registers : Registers) (cycles : Nat) : Registers :=
  { registers with mode := .running, cycleCount := registers.cycleCount + cycles }

namespace Machine

/-- The machine, told not to halt in idle loops. -/
def restless (machine : Machine) : Machine :=
  { machine with config := { machine.config with haltOnIdleLoop := false } }

/-- No step of a sequence executes a jump to its own address. -/
def NeverIdles (machine : Machine) (events : List Event) : Prop :=
  machine.Along (fun found event => event.isStep = true → ¬found.Idles) events

/-- The entry of a jump in place, which leaves some mode. -/
def idleEntry (machine : Machine) (word : Word) (mode : Mode) : TraceEntry :=
  machine.entry (.executed word) { machine.registers.countCycle with mode } none

/-- The machine after a jump in place, in some mode. -/
def idled (machine : Machine) (word : Word) (mode : Mode) : Machine :=
  { machine with
    registers := { machine.registers.countCycle with mode }
    timers := machine.timers.syncTone machine.registers }.record (machine.idleEntry word mode)

/-- The machine, had it not halted but jumped in place for some more cycles. -/
def looped (machine : Machine) (cycles : Nat) (recent : List TraceEntry) : Machine :=
  { machine.restless with registers := machine.registers.looped cycles, recent }

/-- A step executes the word in place once more, and changes nothing but cycle count and trace. -/
def RepeatsJump (word : Word) (machine : Machine) (event : Event) : Prop :=
  event.isStep = true → machine.JumpsInPlace word ∧
    machine.step = (.completed (machine.idleEntry word .running),
      { machine with registers := machine.registers.countCycle }.record
        (machine.idleEntry word .running))

/-- What comes of halting in an idle loop instead of looping on, over some later events. -/
structure HaltsInstead (machine : Machine) (word : Word) (later : List Event) : Prop where
  /-- The word at the counter jumps there. -/
  jumps : machine.JumpsInPlace word
  /-- The step completes the jump, and the machine halts. -/
  halts : machine.step = (.completed (machine.idleEntry word .halted), machine.idled word .halted)
  /-- A machine that was told not to halt completes it too, and differs in its mode only. -/
  loops : machine.restless.step =
    (.completed (machine.idleEntry word .running), (machine.idled word .running).restless)
  /-- No fault is noted. -/
  faultless : (machine.idled word .halted).lastError = none
  /-- The machine stays halted. -/
  rests : ((machine.idled word .halted).after later).registers.mode = .halted
  /-- Every later step of the other machine is the same jump again. -/
  repeats : (machine.idled word .running).restless.Along (RepeatsJump word) later
  /-- All the while the other one differs in its mode, its count of cycles and its trace only. -/
  same : (machine.idled word .running).restless.after later =
    ((machine.idled word .halted).after later).looped (later.countP Event.isStep)
      ((machine.idled word .running).restless.after later).recent

variable {config : Config} {machine left : Machine} {word : Word} {event : Event}

instance (machine : Machine) (events : List Event) : Decidable (machine.NeverIdles events) :=
  inferInstanceAs (Decidable (machine.Along _ events))

/-! ### The jump itself -/

/-- A jump in place halts a machine that is told to halt in idle loops. -/
theorem JumpsInPlace.halts (jumps : machine.JumpsInPlace word)
    (running : machine.registers.mode = .running) (idle : machine.registers.keyRegister = none)
    (told : machine.config.haltOnIdleLoop = true) :
    machine.step = (.completed (machine.idleEntry word .halted), machine.idled word .halted) := by
  have settled : machine.settle word machine.registers.countCycle =
      { machine.registers.countCycle with mode := .halted } := by
    rw [jumps.settle, told, if_pos rfl, Registers.halt]
    -- No key register is set in front of a jump, so that halting forgets none.
    simp only [Registers.countCycle, idle]
  rw [jumps.step running, moved, settled]
  rfl

/-- A jump in place leaves any other machine running. -/
theorem JumpsInPlace.loops (jumps : machine.JumpsInPlace word)
    (running : machine.registers.mode = .running)
    (told : machine.config.haltOnIdleLoop = false) :
    machine.step =
      (.completed (machine.idleEntry word .running), machine.idled word .running) := by
  -- Without the setting the mode stays what it was, and the cycle is recorded as any other.
  have settled : machine.settle word machine.registers.countCycle =
      { machine.registers.countCycle with mode := .running } := by
    rw [jumps.settle, told, if_neg Bool.false_ne_true, ← running]
    rfl
  rw [jumps.step running, moved, settled]
  rfl

/-! ### Until a jump in place -/

/-- A fault makes the same of a restless machine. -/
theorem fail_restless (machine : Machine) (activity : Activity) (fault : Fault) :
    machine.restless.fail activity fault =
      ((machine.fail activity fault).1, (machine.fail activity fault).2.restless) := by
  unfold fail
  split <;> rfl

/-- A poll makes the same of a restless machine. -/
theorem pollKey_restless (machine : Machine) :
    machine.restless.pollKey = (machine.pollKey.1, machine.pollKey.2.restless) := by
  -- A poll does not look at the setting.
  unfold pollKey
  simp only [restless]
  split
  · rfl
  · split
    · rfl
    · split <;> rfl

/-- A machine that does not idle makes the same step when it is told not to halt in idle loops. -/
theorem step_restless (awake : ¬machine.Idles) :
    machine.restless.step = (machine.step.1, machine.step.2.restless) := by
  cases mode : machine.registers.mode with
  | halted =>
    have still : machine.restless.step = (.refused .halted, machine.restless) :=
      step_of_halted mode
    rw [still, step_of_halted mode]
  | awaitingKey =>
    have polls : machine.restless.step = machine.restless.pollKey := step_of_awaiting mode
    rw [polls, step_of_awaiting mode, pollKey_restless]
  | running =>
    have executes : machine.restless.step = machine.restless.executeNext := step_of_running mode
    rw [executes, step_of_running mode]
    cases fetched : machine.board.memory.readWord machine.registers.pc with
    | error fault =>
      rw [executeNext_of_unfetched fetched,
        executeNext_of_unfetched (show machine.restless.board.memory.readWord _ = _ from fetched)]
      exact fail_restless machine .unfetched fault
    | ok word =>
      rw [executeNext_of_fetched fetched,
        executeNext_of_fetched (show machine.restless.board.memory.readWord _ = _ from fetched)]
      show machine.restless.land word (execute word machine.registers machine.board) = _
      rcases done : execute word machine.registers machine.board with ⟨fault | result, board⟩
      · exact fail_restless { machine with board } (.executed word) fault
      · -- What does not idle is settled alike, whatever the settings say.
        have kept : machine.settle word result = result := by
          rcases settle_cases fetched done with kept | ⟨-, jumps⟩
          · exact kept
          · exact absurd ⟨mode, word, jumps⟩ awake
        have kept' : machine.restless.settle word result = result := rfl
        simp only [land, moved, kept, kept']
        rfl

/-- Ticks and uses of the keypad make the same of a restless machine. -/
theorem apply_restless (play : event.isPlay = true) (other : event.isStep = false)
    (machine : Machine) : event.apply machine.restless = (event.apply machine).restless := by
  -- Of what may be played only a step could look at the setting.
  cases event with
  | tick | advance | releaseAll => rfl
  | press number =>
    rw [apply_press, apply_press]
    rfl
  | release number =>
    rw [apply_release, apply_release]
    rfl
  | step => cases other
  | _ => cases play

/-- A sequence that never idles makes the same of both machines. -/
theorem NeverIdles.agree {events : List Event} (never : machine.NeverIdles events)
    (plays : ∀ event ∈ events, event.isPlay = true) :
    machine.restless.results events = machine.results events ∧
      machine.restless.after events = (machine.after events).restless := by
  -- Event by event, with the machine of the next one general.
  induction events generalizing machine with
  | nil => exact ⟨rfl, rfl⟩
  | cons event rest ih =>
    obtain ⟨awake, later⟩ := never
    obtain ⟨play, plays⟩ := List.forall_mem_cons.mp plays
    obtain ⟨results, last⟩ := ih later plays
    rw [results_cons, results_cons, after_cons, after_cons]
    cases step : event.isStep with
    | true =>
      obtain rfl := Event.eq_step step
      have stepped := step_restless (awake rfl)
      have moved : Event.step.apply machine.restless = (Event.step.apply machine).restless :=
        congrArg Prod.snd stepped
      have outcome := congrArg Prod.fst stepped
      rw [moved, results, last]
      simp only [Event.outcome?, Option.map_some, outcome, and_self]
    | false =>
      -- What is no step has no outcome, and does not look at the setting.
      have other : event ≠ .step := by
        rintro rfl
        cases step
      rw [apply_restless play step, results, last, Event.outcome?_of_ne_step machine other,
        Event.outcome?_of_ne_step machine.restless other]
      exact ⟨rfl, rfl⟩

/-! ### From a jump in place on -/

/-- A halted machine in tune, which would jump in place if it ran. -/
structure RestsAt (machine : Machine) (word : Word) : Prop where
  /-- The machine has halted. -/
  halted : machine.registers.mode = .halted
  /-- The word at the counter jumps there. -/
  jumps : machine.JumpsInPlace word
  /-- The tone agrees with the sound timer. -/
  tuned : machine.InTune

/-- A machine that rests at a jump in place goes on to rest there. -/
theorem RestsAt.apply (rests : machine.RestsAt word) (sound : machine.Sound config)
    (play : event.isPlay = true) : (event.apply machine).RestsAt word := by
  have tuned := rests.tuned.apply sound event
  cases step : event.isStep with
  | true =>
    obtain rfl := Event.eq_step step
    show machine.step.2.RestsAt word
    rw [step_of_halted rests.halted]
    exact rests
  | false =>
    -- Neither ticks nor keys reach memory, counter and mode.
    have aside : event.isAside = true := by
      cases event with
      | step => cases step
      | tick | advance | press | release | releaseAll => rfl
      | _ => cases play
    obtain ⟨keypad, delay, tone, timers, asked, left⟩ := apply_aside aside machine
    rw [left] at tuned ⊢
    exact ⟨rests.halted, rests.jumps, tuned⟩

/-- A machine that rests at a jump in place stays there. -/
theorem RestsAt.after {events : List Event} (rests : machine.RestsAt word)
    (sound : machine.Sound config) (plays : ∀ event ∈ events, event.isPlay = true) :
    (machine.after events).RestsAt word := by
  -- Each event that is played leaves it at rest.
  induction events generalizing machine with
  | nil => exact rests
  | cons event rest ih =>
    obtain ⟨play, later⟩ := List.forall_mem_cons.mp plays
    exact ih (rests.apply sound play) (sound.apply event) later

/-- Ticks count down alike, whether or not the machine has looped. -/
theorem tickMany_looped (timers : Timers Tone) (registers : Registers) (cycles count : Nat) :
    timers.tickMany (registers.looped cycles) count =
      ((timers.tickMany registers count).1.looped cycles, (timers.tickMany registers count).2) := by
  induction count generalizing timers registers with
  | zero => rfl
  | succ count ih => exact ih (timers.tick registers).2 registers.tickTimers

/-- Ticks and uses of the keypad make no difference to looping. -/
theorem apply_looped (play : event.isPlay = true) (other : event.isStep = false)
    (machine : Machine) (cycles : Nat) (recent : List TraceEntry) :
    event.apply (machine.looped cycles recent) = (event.apply machine).looped cycles recent := by
  cases event with
  | tick | releaseAll => rfl
  | advance seconds =>
    -- Whether seconds come to ticks is a matter of the driver alone.
    simp only [Event.apply, advanceTimers, Timers.advance, looped, restless]
    cases wholePart ((machine.timers.remainder + seconds) * machine.timers.rate) with
    | error fault => rfl
    | ok count => simp only [tickMany_looped]
  | press number =>
    rw [apply_press, apply_press]
    rfl
  | release number =>
    rw [apply_release, apply_release]
    rfl
  | step => cases other
  | _ => cases play

/-- The driver of a machine in tune is not changed by a jump in place. -/
theorem InTune.idled (tuned : machine.InTune) (running : machine.registers.mode = .running) :
    machine.idled word .running = { machine with registers := machine.registers.countCycle }.record
      (machine.idleEntry word .running) := by
  -- The tone is told what it shows.
  have told : machine.timers.syncTone machine.registers = machine.timers := by
    have same : ToneSink.setActive (decide (0 < machine.registers.soundTimer)) machine.timers.tone =
        machine.timers.tone := Tone.setActive_self tuned
    unfold Timers.syncTone Timers.setTone
    rw [same]
  have kept : { machine.registers.countCycle with mode := .running } =
      machine.registers.countCycle := by
    rw [← running]
    rfl
  rw [Machine.idled, told, kept]

/-- The jump in place of a machine that loops counts one cycle and is recorded. -/
theorem RestsAt.loops (rests : machine.RestsAt word) (cycles : Nat) (recent : List TraceEntry) :
    RepeatsJump word (machine.looped cycles recent) .step ∧
      ∃ later, (machine.looped cycles recent).step.2 = machine.looped (cycles + 1) later := by
  -- At rest the tone is in tune, so even telling it again changes nothing.
  have jumps : (machine.looped cycles recent).JumpsInPlace word := rests.jumps
  have tuned : (machine.looped cycles recent).InTune := rests.tuned
  have stepped := jumps.loops rfl rfl
  rw [tuned.idled rfl] at stepped
  refine ⟨fun _ => ⟨jumps, stepped⟩, ((machine.looped cycles recent).step).2.recent, ?_⟩
  have count : machine.registers.cycleCount + cycles + 1 =
      machine.registers.cycleCount + (cycles + 1 : Nat) := by omega
  rw [stepped]
  simp only [record, looped, restless, Registers.looped, Registers.countCycle, count]

/-- A machine that loops where another one rests repeats its jump, and stays alike. -/
theorem RestsAt.looping {events : List Event} (rests : machine.RestsAt word)
    (sound : machine.Sound config) (plays : ∀ event ∈ events, event.isPlay = true)
    (cycles : Nat) (recent : List TraceEntry) :
    (machine.looped cycles recent).Along (RepeatsJump word) events ∧
      ∃ later, (machine.looped cycles recent).after events =
        (machine.after events).looped (cycles + events.countP Event.isStep) later := by
  induction events generalizing machine cycles recent with
  | nil => exact ⟨trivial, recent, rfl⟩
  | cons event rest ih =>
    obtain ⟨play, later⟩ := List.forall_mem_cons.mp plays
    have onward := rests.apply sound play
    cases step : event.isStep with
    | true =>
      obtain rfl := Event.eq_step step
      -- The resting machine refuses the step, and the looping one takes one more cycle.
      obtain ⟨repeats, recorded, left⟩ := rests.loops cycles recent
      have still : Event.step.apply machine = machine := by
        show machine.step.2 = machine
        rw [step_of_halted rests.halted]
      obtain ⟨along, trace, last⟩ := ih rests sound later (cycles + 1) recorded
      have moved : Event.step.apply (machine.looped cycles recent) =
          machine.looped (cycles + 1) recorded := left
      refine ⟨⟨repeats, moved ▸ along⟩, trace, ?_⟩
      rw [after_cons, after_cons, moved, still, last, List.countP_cons_of_pos rfl]
      congr 1
      omega
    | false =>
      have moved := apply_looped play step machine cycles recent
      obtain ⟨along, trace, last⟩ := ih onward (sound.apply event) later cycles recent
      refine ⟨⟨?_, moved ▸ along⟩, trace, ?_⟩
      · intro steps
        rw [step] at steps
        cases steps
      · rw [after_cons, after_cons, moved, last, List.countP_cons_of_neg (by simp [step])]

/-! ### The comparison -/

/-- A machine that is told to halt in idle loops halts in one instead of looping on. -/
theorem Reachable.haltsInstead {later : List Event} (reachable : machine.Reachable config)
    (told : config.haltOnIdleLoop = true) (idles : machine.Idles)
    (plays : ∀ event ∈ later, event.isPlay = true) : ∃ word, machine.HaltsInstead word later := by
  obtain ⟨running, word, jumps⟩ := idles
  have sound := reachable.sound
  have idle := sound.waits.settled (by rw [running]; decide)
  have noted := reachable.unfailed (by rw [running]; decide)
  have halts := jumps.halts running idle (by rw [sound.settings, told])
  have restless : machine.restless.JumpsInPlace word := jumps
  have loops := restless.loops running rfl
  -- The machine that halts rests where the other one jumps, and has been told of its sound timer.
  have rests : (machine.idled word .halted).RestsAt word :=
    ⟨rfl, jumps, (Tone.setActive_active _ _)⟩
  have halted := sound.stepped halts
  have alike : (machine.idled word .running).restless =
      (machine.idled word .halted).looped 0 (machine.idled word .running).recent := by
    simp only [looped, Registers.looped, Machine.restless, idled, record, Int.natCast_zero,
      Int.add_zero]
  obtain ⟨along, trace, last⟩ := rests.looping halted plays 0 (machine.idled word .running).recent
  rw [← alike, Nat.zero_add] at last
  refine ⟨word, jumps, halts, loops, noted, (rests.after halted plays).halted, alike ▸ along, ?_⟩
  rw [last]
  rfl

/--
Halting in idle loops is sound.

A machine that is told to halt in idle loops and one that is not are given the same steps, ticks and
uses of the keypad.
Until a jump to its own address is executed, all steps end alike and the two machines differ in
their settings only.
At the jump the first one halts without a fault, and from then on the second one repeats the jump
and differs in its mode, its count of cycles and its trace only.
An event that halts a machine does so by a fault that is noted, or by such a jump; and unless the
host has written to memory, the word of the jump is still there.
-/
theorem idle_halting_sound :
    (∀ (config : Config) (machine : Machine) (first later : List Event),
      machine.Reachable config → config.haltOnIdleLoop = true →
      (∀ event ∈ first, event.isPlay = true) → (∀ event ∈ later, event.isPlay = true) →
      machine.NeverIdles first →
        machine.restless.results first = machine.results first ∧
        machine.restless.after first = (machine.after first).restless ∧
        ((machine.after first).Idles → ∃ word, (machine.after first).HaltsInstead word later)) ∧
    (∀ (config : Config) (machine : Machine) (event : Event), machine.Reachable config →
      machine.registers.mode ≠ .halted → (event.apply machine).registers.mode = .halted →
        ∃ count, (machine.after (Event.steps count)).StepStops ∧
          event.apply machine = (machine.after (Event.steps count)).step.2) ∧
    ∀ (config : Config) (random : ByteSource) (machine : Machine),
      Evolves (fun event => event.isWrite = false) (.withRandom config random) machine →
        machine.IdlyHalted := by
  refine ⟨?_, ?_, ?_⟩
  · -- As long as nothing idles the two agree, and then one halts and the other repeats its jump.
    intro config machine first later reachable told plays plays' never
    obtain ⟨results, same⟩ := never.agree plays
    refine ⟨results, same, ?_⟩
    intro idles
    exact (reachable.after first).haltsInstead told idles plays'
  · -- A halt is the work of one step, also within a run.
    intro config machine event reachable awake halted
    exact reachable.event_stops awake halted
  · -- A machine at power-on has not halted, and without writes of a host a jump stays in place.
    intro config random machine history
    refine (idlyHalted_lasting config).evolves ?_ history (Sound.withRandom config random) ?_
    · intro event unwritten written
      rw [unwritten] at written
      cases written
    · intro halted
      cases halted

/-- The beeping machine halts in its idle loop, while it sounds, instead of looping on. -/
theorem idle_halting_sound_beeping :
    beeping.restless.after [.step, .step] = (beeping.after [.step, .step]).restless ∧
      (∃ word, (beeping.after [.step, .step]).HaltsInstead word [.tick, .step, .press 5, .step]) ∧
      (∃ count, (beeping.after (Event.steps count)).StepStops ∧
        (Event.run 9).apply beeping = (beeping.after (Event.steps count)).step.2) ∧
      ((Event.run 9).apply beeping).IdlyHalted := by
  have reachable : beeping.Reachable .standard := Reachable.standard.after _
  -- The program sets the sound timer before it jumps to itself.
  have idles : (beeping.after [.step, .step]).Idles := by decide +kernel
  obtain ⟨-, same, halts⟩ := idle_halting_sound.1 .standard beeping [.step, .step]
    [.tick, .step, .press 5, .step] reachable rfl (by decide) (by decide) (by decide +kernel)
  refine ⟨same, halts idles, ?_, ?_⟩
  · exact idle_halting_sound.2.1 .standard beeping (.run 9) reachable (by decide +kernel)
      (by decide +kernel)
  · have loaded : Evolves (fun event => event.isWrite = false) .standard beeping :=
      @Evolves.event (fun event => event.isWrite = false) _ .standard
        (.loadImage [0x60, 0x02, 0xF0, 0x18, 0x12, 0x04]) rfl (.refl _)
    exact idle_halting_sound.2.2 .standard (.seeded (Config.standard.seed.getD 0)) _
      (.event (.run 9) rfl loaded)

end Machine

end Chip8
