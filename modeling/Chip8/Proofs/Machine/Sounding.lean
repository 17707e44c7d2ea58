import Chip8.Proofs.Machine.Run

/-!
The tone beside the sound timer.

The driver is told of the sound timer behind every executed word, tick, load and reset.
Behind a fault, a poll or a refused load it is not told, but these leave the sound timer alone.
So a tone that agrees with the sound timer goes on to agree with it, and the silence at the end of
a realtime run lasts until the driver is told again.
-/

namespace Chip8

/-- How often a truth changes, over a list of looks at it behind a first one. -/
def changes (first : Bool) : List Bool → Nat
  | [] => 0
  | next :: rest => (if next = first then 0 else 1) + changes next rest

/-- Tells a tone of a list of looks, one after the other. -/
def Tone.tell (tone : Tone) (looks : List Bool) : Tone :=
  looks.foldl (fun told look => ToneSink.setActive look told) tone

/-- A tone shows what it was told last. -/
theorem Tone.setActive_active (tone : Tone) (active : Bool) :
    (ToneSink.setActive active tone).active = active := by
  by_cases same : active = tone.active
  · -- The command changes nothing, because the tone showed this before.
    simp [ToneSink.setActive, same]
  · simp [ToneSink.setActive, same]

/-- A tone that is told what it shows stays as it is. -/
theorem Tone.setActive_self {tone : Tone} {active : Bool} (same : tone.active = active) :
    ToneSink.setActive active tone = tone := by
  simp [ToneSink.setActive, same]

/-- A tone remembers how often what it was told has changed. -/
theorem Tone.tell_transitions (tone : Tone) (looks : List Bool) :
    (tone.tell looks).transitions = tone.transitions + changes tone.active looks := by
  induction looks generalizing tone with
  | nil => rfl
  | cons look rest ih =>
    -- The first look is told, and the rest are compared with it.
    show ((ToneSink.setActive look tone).tell rest).transitions = _
    rw [ih, setActive_active, changes]
    by_cases same : look = tone.active
    · simp [ToneSink.setActive, same]
    · simp [ToneSink.setActive, same, Nat.add_assoc]

namespace Machine

/-- The sound timer has not run out. -/
def sounds (machine : Machine) : Bool :=
  decide (0 < machine.registers.soundTimer)

/-- The tone sounds exactly while the sound timer has not run out. -/
def InTune (machine : Machine) : Prop :=
  machine.timers.tone.active = machine.sounds

/-- How many ticks elapsed seconds are turned into. -/
def ticksIn (machine : Machine) (seconds : Float) : Nat :=
  match (machine.advanceTimers seconds).1 with
  | .ok count => count.toNat
  | .error _ => 0

/-- The machine with other seconds that are short of a tick. -/
def withRemainder (machine : Machine) (remainder : Float) : Machine :=
  { machine with timers := { machine.timers with remainder } }

/-- The driver was told of the sound timer that a machine was left with. -/
def Told (before left : Machine) : Prop :=
  left.timers.tone = ToneSink.setActive left.sounds before.timers.tone

/-- Neither the tone nor the truth about the sound timer has changed. -/
def Untold (before left : Machine) : Prop :=
  left.timers.tone = before.timers.tone ∧ left.sounds = before.sounds

end Machine

namespace Event

/-- Events that are not made of several steps or ticks. -/
def isSingle : Event → Bool
  | .run _ | .advance _ => false
  | _ => true

/-- The single events that an event is made of. -/
def singles (event : Event) (machine : Machine) : List Event :=
  match event with
  | .run limit => steps (machine.runResults limit).length
  | .advance seconds => List.replicate (machine.ticksIn seconds) .tick
  | other => [other]

/-- A single event behind which the driver is told: an executed word, a tick, a load or a reset. -/
def Tells (event : Event) (machine : Machine) : Prop :=
  match event with
  | .step => ∃ entry word, machine.step.1 = .completed entry ∧ entry.activity = .executed word
  | .tick => True
  | .loadImage image => (machine.loadImage image).1 = .ok ()
  | .loadSource source => (machine.loadSource source).1 = .ok ()
  | .reset => machine.reset.1 = .ok ()
  | _ => False

/-- An event in which the driver is told at least once. -/
def Retunes (event : Event) (machine : Machine) : Prop :=
  ∃ before single later, event.singles machine = before ++ single :: later ∧
    single.Tells (machine.after before)

end Event

namespace Machine

/-- Looks at the sound timer, one behind each event of a sequence. -/
def looks (machine : Machine) : List Event → List Bool
  | [] => []
  | event :: rest => (event.apply machine).sounds :: (event.apply machine).looks rest

/-- Looks at the sound timer, one behind each single event of a sequence. -/
def sightings (machine : Machine) : List Event → List Bool
  | [] => []
  | event :: rest => machine.looks (event.singles machine) ++ (event.apply machine).sightings rest

variable {config : Config} {machine left : Machine} {event : Event}

/-! ### Single events -/

/-- A machine whose driver was told is in tune. -/
theorem Told.inTune (told : Told machine left) : left.InTune := by
  unfold InTune
  rw [told, Tone.setActive_active]

/-- A machine in tune might as well have been told where it was not. -/
theorem Untold.told (untold : Untold machine left) (tuned : machine.InTune) :
    Told machine left := by
  obtain ⟨tone, sounds⟩ := untold
  unfold Told
  rw [sounds, Tone.setActive_self tuned, tone]

/-- A loaded machine was told. -/
theorem loadImage_told {image : List Byte} (done : machine.loadImage image = (.ok (), left)) :
    Told machine left := by
  -- A restart resets the driver and then tells it.
  obtain ⟨memory, -, rfl⟩ := loadImage_eq_ok.mp done
  rfl

/-- A step tells the driver of an executed word, and leaves the sound timer alone otherwise. -/
theorem step_told (sound : machine.Sound config) :
    (Event.step.Tells machine ∧ Told machine machine.step.2) ∨
      (¬Event.step.Tells machine ∧ Untold machine machine.step.2) := by
  rcases stepped : machine.step with ⟨result, left⟩
  have kind := sound.steps stepped
  cases kind with
  | halted | fruitless | failed =>
    refine .inr ⟨?_, rfl, rfl⟩
    rintro ⟨entry, word, completed, -⟩
    rw [stepped] at completed
    cases completed
  | delivered =>
    -- A key is stored in a general register.
    refine .inr ⟨?_, rfl, rfl⟩
    rintro ⟨entry, word, completed, executed⟩
    rw [stepped] at completed
    obtain rfl := StepResult.completed.inj completed
    cases executed
  | executed => exact .inl ⟨⟨_, _, congrArg Prod.fst stepped, rfl⟩, rfl⟩

/-- A load tells the driver when it is done, and leaves everything alone when refused. -/
theorem atomic_told {ε : Type} {attempt : Except ε Unit × Machine}
    (atomic : Atomic machine attempt)
    (tells : ∀ left, attempt = (.ok (), left) → Told machine left) :
    (attempt.1 = .ok () ∧ Told machine attempt.2) ∨
      (attempt.1 ≠ .ok () ∧ Untold machine attempt.2) := by
  -- A refused attempt leaves the machine as it was, with its tone.
  rcases attempt with ⟨reason | ⟨⟩, left⟩
  · obtain rfl := atomic reason left rfl
    exact .inr ⟨nofun, rfl, rfl⟩
  · exact .inl ⟨rfl, tells left rfl⟩

/-- A single event either tells the driver, or leaves tone and sound timer alone. -/
theorem single_told (sound : machine.Sound config) (single : event.isSingle = true) :
    (event.Tells machine ∧ Told machine (event.apply machine)) ∨
      (¬event.Tells machine ∧ Untold machine (event.apply machine)) := by
  -- Steps and ticks tell the tone, and so does a load that is not refused.
  cases event with
  | step => exact step_told sound
  | tick => exact .inl ⟨trivial, rfl⟩
  | loadImage image => exact atomic_told (machine.loadImage_atomic image) fun _ => loadImage_told
  | loadSource source =>
    refine atomic_told (machine.loadSource_atomic source) fun left loaded => ?_
    obtain ⟨image, done⟩ := loadSource_done loaded
    exact loadImage_told done
  | reset => exact atomic_told (machine.loadImage_atomic machine.program) fun _ => loadImage_told
  | press | release | releaseAll | write | writeBlock | fill | stop => exact .inr ⟨id, rfl, rfl⟩
  | run | advance => cases single

/-- A machine in tune is told of every single event, as far as can be seen. -/
theorem InTune.told (tuned : machine.InTune) (sound : machine.Sound config)
    (single : event.isSingle = true) : Told machine (event.apply machine) := by
  rcases single_told sound single with ⟨-, told⟩ | ⟨-, untold⟩
  · exact told
  · exact untold.told tuned

/-- Behind single events the tone has been told of every look. -/
theorem InTune.looks {events : List Event} (tuned : machine.InTune) (sound : machine.Sound config)
    (single : ∀ event ∈ events, event.isSingle = true) :
    (machine.after events).InTune ∧
      (machine.after events).timers.tone = machine.timers.tone.tell (machine.looks events) := by
  -- After each event the tone is in tune again, and the rest is told from there.
  induction events generalizing machine with
  | nil => exact ⟨tuned, rfl⟩
  | cons event rest ih =>
    obtain ⟨first, later⟩ := List.forall_mem_cons.mp single
    have told := tuned.told sound first
    obtain ⟨last, tone⟩ := ih told.inTune (sound.apply event) later
    refine ⟨last, tone.trans ?_⟩
    rw [told]
    rfl

/-! ### Runs and elapsed seconds -/

/-- What is kept short of a tick makes no difference to the ticks. -/
theorem tickMany_remainder (timers : Timers Tone) (registers : Registers) (remainder : Float)
    (count : Nat) :
    ({ timers with remainder } : Timers Tone).tickMany registers count =
      ((timers.tickMany registers count).1,
        { (timers.tickMany registers count).2 with remainder }) := by
  induction count generalizing timers registers with
  | zero => rfl
  | succ count ih => exact ih (timers.tick registers).2 registers.tickTimers

/-- Elapsed seconds are so many ticks, but for what is kept short of a tick. -/
theorem advance_ticks (machine : Machine) (seconds : Float) :
    ∃ remainder, (machine.advanceTimers seconds).2 =
      (machine.after (List.replicate (machine.ticksIn seconds) .tick)).withRemainder remainder := by
  rw [after_ticks]
  simp only [ticksIn, advanceTimers, Timers.advance]
  cases wholePart ((machine.timers.remainder + seconds) * machine.timers.rate) with
  | error fault => exact ⟨_, rfl⟩
  | ok count =>
    -- The driver ticks with another remainder than the ticks in a row.
    simp only [tickMany_remainder]
    exact ⟨_, rfl⟩

/-- An event leaves what its single events leave, but for what is kept short of a tick. -/
theorem after_singles (sound : machine.Sound config) (event : Event) :
    ∃ remainder, event.apply machine =
      (machine.after (event.singles machine)).withRemainder remainder := by
  -- Only a run and elapsed seconds are made of several events.
  cases event with
  | run limit =>
    obtain ⟨-, left⟩ := (run_runsTo sound limit).1.steps
    refine ⟨(machine.run limit).2.timers.remainder, ?_⟩
    show (machine.run limit).2 =
      (machine.after (Event.steps (machine.runResults limit).length)).withRemainder _
    rw [left]
    rfl
  | advance seconds => exact machine.advance_ticks seconds
  | _ => exact ⟨_, rfl⟩

/-- The single events of an event leave the tone and the sound timer that the event leaves. -/
theorem untold_singles (sound : machine.Sound config) (event : Event) :
    Untold (machine.after (event.singles machine)) (event.apply machine) := by
  obtain ⟨remainder, left⟩ := after_singles sound event
  rw [left]
  exact ⟨rfl, rfl⟩

/-- An event is made of single ones. -/
theorem single_of_mem_singles {single : Event} (listed : single ∈ event.singles machine) :
    single.isSingle = true := by
  -- Runs and seconds are taken apart into steps and ticks, and the others are single.
  cases event with
  | run limit =>
    obtain ⟨-, rfl⟩ := List.mem_replicate.mp listed
    rfl
  | advance seconds =>
    obtain ⟨-, rfl⟩ := List.mem_replicate.mp listed
    rfl
  | _ =>
    obtain rfl := List.mem_singleton.mp listed
    rfl

/-- An untold machine is in tune if it was before. -/
theorem Untold.inTune (untold : Untold machine left) (tuned : machine.InTune) : left.InTune :=
  (untold.told tuned).inTune

/-- Every event keeps a machine in tune. -/
theorem InTune.apply (tuned : machine.InTune) (sound : machine.Sound config) (event : Event) :
    (event.apply machine).InTune :=
  (untold_singles sound event).inTune
    (tuned.looks sound fun _ listed => single_of_mem_singles listed).1

/-- Behind a sequence of events the tone has been told of every sighting. -/
theorem InTune.after (tuned : machine.InTune) (sound : machine.Sound config)
    (events : List Event) :
    (machine.after events).InTune ∧
      (machine.after events).timers.tone = machine.timers.tone.tell (machine.sightings events) := by
  -- An event does to the tone what its single events do.
  induction events generalizing machine with
  | nil => exact ⟨tuned, rfl⟩
  | cons event rest ih =>
    have singles : ∀ single ∈ event.singles machine, single.isSingle = true := by
      intro single listed
      exact single_of_mem_singles listed
    obtain ⟨-, told⟩ := tuned.looks sound singles
    obtain ⟨last, tone⟩ := ih (tuned.apply sound event) (sound.apply event)
    refine ⟨last, tone.trans ?_⟩
    rw [(untold_singles sound event).1, told]
    exact List.foldl_append.symm

/-- An event in which the driver is told puts a machine in tune. -/
theorem inTune_of_retunes (sound : machine.Sound config) (retunes : event.Retunes machine) :
    (event.apply machine).InTune := by
  obtain ⟨before, single, later, made, tells⟩ := retunes
  refine (untold_singles sound event).inTune ?_
  have singles : ∀ other ∈ before ++ single :: later, other.isSingle = true := by
    intro other listed
    exact single_of_mem_singles (made ▸ listed)
  obtain ⟨-, singles⟩ := List.forall_mem_append.mp singles
  obtain ⟨first, singles⟩ := List.forall_mem_cons.mp singles
  rw [made, after_append, after_cons]
  -- From the event behind which the driver is told, all single events keep the tune.
  have begun := sound.after before
  rcases single_told begun first with ⟨-, told⟩ | ⟨untold, -⟩
  · exact (told.inTune.looks (begun.apply single) singles).1
  · exact absurd tells untold

/--
The tone follows the sound timer.

At power-on they agree, and behind every sequence of events they still do, while the tone counts
each change of the truth that the sound timer has not run out, seen behind every single step, tick,
load and reset.
A realtime run leaves the tone silent, however it ends.
A reachable machine agrees with its sound timer from the first event on in which a word is executed,
a timer ticks, or a program is loaded.
-/
theorem tone_follows_sound :
    (∀ (config : Config) (random : ByteSource) (events : List Event),
      ((withRandom config random).after events).InTune ∧
        ((withRandom config random).after events).timers.tone.transitions =
          changes false ((withRandom config random).sightings events)) ∧
    (∀ {σ ε : Type} (host : Host σ ε) (pace : Pace) (fuel : Nat) (world : σ) (machine : Machine),
      (machine.runRealtime host pace fuel world).2.2.timers.tone.active = false) ∧
    ∀ (config : Config) (machine : Machine) (earlier : List Event) (event : Event)
      (later : List Event), machine.Reachable config → event.Retunes (machine.after earlier) →
        (machine.after (earlier ++ event :: later)).InTune := by
  refine ⟨?_, ?_, ?_⟩
  · intro config random events
    have tuned : (withRandom config random).InTune := rfl
    obtain ⟨last, tone⟩ := tuned.after (Sound.withRandom config random) events
    refine ⟨last, ?_⟩
    rw [tone, Tone.tell_transitions]
    exact Nat.zero_add _
  · -- The last thing that a realtime run does is to silence the tone.
    intro σ ε host pace fuel world machine
    rw [runRealtime_eq]
    exact Tone.setActive_active _ false
  · intro config machine earlier event later reachable retunes
    have sound := reachable.sound.after earlier
    rw [after_append, after_cons]
    exact ((inTune_of_retunes sound retunes).after (sound.apply event) later).1

/-- A standard machine about to sound for two ticks, and then to loop in place. -/
def beeping : Machine :=
  Machine.standard.after [.loadImage [0x60, 0x02, 0xF0, 0x18, 0x12, 0x04]]

/-- A host whose clock stands still, and who interrupts the first sleep. -/
def restive : Host Unit Unit where
  clock world := (0.0, world)
  sleep _ world machine := (.error (), world, machine)

/-- The sounding machine after a realtime run that was interrupted. -/
def silenced : Machine :=
  ((beeping.after [.step, .step]).runRealtime restive {} 2 ()).2.2

/-- The interrupted machine is silent though its sound timer has not run out, until a tick. -/
theorem tone_follows_sound_silenced :
    silenced.timers.tone.active = false ∧ silenced.sounds = true ∧
      (silenced.after [.press 3, .tick, .step]).InTune := by
  have reachable : silenced.Reachable .standard := by
    obtain ⟨random, history⟩ :=
      (Reachable.standard.after [.loadImage _]).after [.step, .step]
    refine ⟨random, .realtime restive {} 2 () ?_ history⟩
    -- The host's sleep does nothing to the machine.
    intro seconds world machine
    exact .refl machine
  have silent : silenced.timers.tone.active = false := by
    unfold silenced
    exact tone_follows_sound.2.1 restive {} 2 () (beeping.after [.step, .step])
  refine ⟨silent, by decide +kernel, ?_⟩
  exact tone_follows_sound.2.2 .standard silenced [.press 3] .tick [.step] reachable
    ⟨[], .tick, [], rfl, trivial⟩

end Machine

end Chip8
