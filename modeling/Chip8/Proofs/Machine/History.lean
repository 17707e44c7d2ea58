import Chip8.Proofs.Machine.Loop
import Chip8.Proofs.Keypad
import Chip8.Proofs.Memory

/-!
What a host can do with a machine, and the machines that come of it.

A property that each event keeps is kept by every history, with the realtime runs in it.
-/

namespace Chip8

/-- The settings of a machine about which its host says nothing. -/
def Config.standard : Config where
  instructionsPerSecond := 700.0
  timerRate := 60.0
  displayMode := .wide32
  seed := none
  maxCycles := 10000
  traceLimit := 1000
  entryPoint := 512
  haltOnIdleLoop := true

/-- A standard machine at power-on, whose random bytes come from a fixed seed. -/
def Machine.standard : Machine :=
  .new .standard (.seeded 0)

/-- One use that a host makes of a machine, other than a realtime run. -/
inductive Event where
  /-- An image is loaded at the entry point. -/
  | loadImage (image : List Byte)
  /-- A source text is assembled and loaded. -/
  | loadSource (source : List Char)
  /-- The remembered image is loaded again. -/
  | reset
  /-- One cycle is taken. -/
  | step
  /-- The machine is run up to a cycle limit. -/
  | run (limit : Int)
  /-- Both timers count down by one. -/
  | tick
  /-- Elapsed seconds are turned into ticks. -/
  | advance (seconds : Float)
  /-- A key goes down. -/
  | press (number : Int)
  /-- A key goes up. -/
  | release (number : Int)
  /-- All keys go up. -/
  | releaseAll
  /-- The host writes a byte to memory. -/
  | write (address value : Int)
  /-- The host writes a block to memory. -/
  | writeBlock (address : Int) (values : List Int)
  /-- The host replaces all writable bytes by an image at any base. -/
  | fill (image : List Byte) (base : Int)
  /-- The realtime loop is asked to stop. -/
  | stop

namespace Event

/-- The machine after an event, whatever the event is answered. -/
def apply (event : Event) (machine : Machine) : Machine :=
  match event with
  | .loadImage image => (machine.loadImage image).2
  | .loadSource source => (machine.loadSource source).2
  | .reset => machine.reset.2
  | .step => machine.step.2
  | .run limit => (machine.run limit).2
  | .tick => machine.tick
  | .advance seconds => (machine.advanceTimers seconds).2
  | .press number => (machine.pressKey number).2
  | .release number => (machine.releaseKey number).2
  | .releaseAll => machine.releaseAllKeys
  | .write address value => machine.withMemory (machine.board.memory.write address value).2
  | .writeBlock address values =>
    machine.withMemory (machine.board.memory.writeBlock address values).2
  | .fill image base => machine.withMemory (machine.board.memory.load image base).2
  | .stop => machine.requestStop

/-- Loads and resets return the machine to its entry point. -/
def restarts : Event → Bool
  | .loadImage _ | .loadSource _ | .reset => true
  | _ => false

end Event

/-! ### Loads and keys -/

namespace Machine

variable {machine left : Machine} {image : List Byte} {source : List Char}

/-- The machine into whose memory an image has been loaded, at power-on again. -/
def loaded (machine : Machine) (image : List Byte) (memory : Memory) : Machine :=
  { machine.withMemory memory with program := image }.restart

/-- An image is loaded exactly if memory takes it at the entry point. -/
theorem loadImage_eq_ok :
    machine.loadImage image = (.ok (), left) ↔ ∃ memory,
      machine.board.memory.load image machine.config.entryPoint = (.ok (), memory) ∧
        left = machine.loaded image memory := by
  -- Memory may refuse the image, and nothing else does.
  unfold loadImage
  rcases machine.board.memory.load image machine.config.entryPoint with ⟨fault | ⟨⟩, memory⟩
  · simp
  · simp [loaded, eq_comm]

/-- An image is refused for the reason that memory has, and leaves the machine as it was. -/
theorem loadImage_error {fault : Fault} (refused : machine.loadImage image = (.error fault, left)) :
    left = machine ∧ (machine.board.memory.load image machine.config.entryPoint).1 =
      .error fault := by
  unfold loadImage at refused
  rcases answered : machine.board.memory.load image machine.config.entryPoint with
    ⟨cause | ⟨⟩, memory⟩
  · -- Memory itself is as it was, and nothing else has changed.
    simp only [answered, Prod.mk.injEq, Except.error.injEq] at refused
    obtain ⟨rfl, rfl⟩ := refused
    obtain rfl := Memory.load_atomic _ _ _ _ _ answered
    exact ⟨rfl, rfl⟩
  · simp [answered] at refused

/-- A refused image leaves the machine as it was. -/
theorem loadImage_atomic (machine : Machine) (image : List Byte) :
    Atomic machine (machine.loadImage image) :=
  fun _ _ refused => (loadImage_error refused).1

/-- A source text is loaded exactly if it is assembled to an image that is loaded. -/
theorem loadSource_eq_ok :
    machine.loadSource source = (.ok (), left) ↔ ∃ image,
      assemble source machine.config.entryPoint = .ok image ∧
        machine.loadImage image = (.ok (), left) := by
  -- A text is assembled before its image is loaded.
  unfold loadSource
  cases assembled : assemble source machine.config.entryPoint with
  | error cause => simp
  | ok image =>
    simp only [Except.ok.injEq, exists_eq_left']
    simp only [mapError_eq_ok, Prod.ext_iff]

/-- A source text that is loaded is assembled, and its image is loaded. -/
theorem loadSource_done (done : machine.loadSource source = (.ok (), left)) :
    ∃ image, machine.loadImage image = (.ok (), left) := by
  obtain ⟨image, -, loaded⟩ := loadSource_eq_ok.mp done
  exact ⟨image, loaded⟩

/-- A refused source text leaves the machine as it was. -/
theorem loadSource_atomic (machine : Machine) (source : List Char) :
    Atomic machine (machine.loadSource source) := by
  intro refusal left refused
  unfold loadSource at refused
  cases assembled : assemble source machine.config.entryPoint with
  | error cause =>
    rw [assembled] at refused
    exact (Prod.mk.inj refused).2.symm
  | ok image =>
    -- What was assembled may still be refused as an image.
    simp only [assembled] at refused
    rcases answered : machine.loadImage image with ⟨fault | ⟨⟩, made⟩
    · rw [answered] at refused
      obtain rfl := (Prod.mk.inj refused).2
      exact loadImage_atomic _ _ _ _ answered
    · rw [answered] at refused
      cases (Prod.mk.inj refused).1

/-- What a load of an image leaves has a property of the machine and of what is loaded. -/
theorem loadImage_keeps {property : Machine → Prop} (kept : property machine)
    (restarted : ∀ memory,
      machine.board.memory.load image machine.config.entryPoint = (.ok (), memory) →
        property (machine.loaded image memory)) : property (machine.loadImage image).2 := by
  refine (loadImage_atomic machine image).keeps kept fun left done => ?_
  obtain ⟨memory, taken, rfl⟩ := loadImage_eq_ok.mp done
  exact restarted memory taken

/-- What a load of a source text leaves has a property of the machine and of what is loaded. -/
theorem loadSource_keeps {property : Machine → Prop} (kept : property machine)
    (restarted : ∀ image memory,
      machine.board.memory.load image machine.config.entryPoint = (.ok (), memory) →
        property (machine.loaded image memory)) : property (machine.loadSource source).2 := by
  -- Behind a load that is not refused stands an image that was.
  refine (loadSource_atomic machine source).keeps kept fun left done => ?_
  obtain ⟨image, answered⟩ := loadSource_done done
  obtain ⟨memory, taken, rfl⟩ := loadImage_eq_ok.mp answered
  exact restarted image memory taken

/-- A refused press leaves the machine as it was. -/
theorem pressKey_atomic (machine : Machine) (number : Int) :
    Atomic machine (machine.pressKey number) := by
  -- The keypad refuses the number, and hands itself back.
  intro refusal left refused
  unfold pressKey at refused
  rcases pressed : machine.board.keypad.press number with ⟨answer, keypad⟩
  simp only [pressed, Prod.mk.injEq] at refused
  obtain ⟨rfl, rfl⟩ := refused
  obtain rfl := Keypad.press_atomic _ _ _ _ pressed
  rfl

/-- A refused release leaves the machine as it was. -/
theorem releaseKey_atomic (machine : Machine) (number : Int) :
    Atomic machine (machine.releaseKey number) := by
  -- The keypad refuses the number, and hands itself back.
  intro refusal left refused
  unfold releaseKey at refused
  rcases released : machine.board.keypad.release number with ⟨answer, keypad⟩
  simp only [released, Prod.mk.injEq] at refused
  obtain ⟨rfl, rfl⟩ := refused
  obtain rfl := Keypad.release_atomic _ _ _ _ released
  rfl

end Machine

/--
The machines that come of one machine by events of a kind and by realtime runs.

During a realtime run the host's sleep may do whatever such a history can do.
-/
inductive Evolves (allowed : Event → Prop) : Machine → Machine → Prop where
  /-- Nothing has happened yet. -/
  | refl (machine : Machine) : Evolves allowed machine machine
  /-- An event happens. -/
  | event {first last : Machine} (event : Event) (may : allowed event) :
      Evolves allowed first last → Evolves allowed first (event.apply last)
  /-- A realtime run happens, by any clock and for any number of passes. -/
  | realtime {σ ε : Type} {first last : Machine} (host : Host σ ε) (pace : Pace) (passes : Nat)
      (world : σ)
      (sleeps : ∀ seconds world machine,
        Evolves allowed machine (host.sleep seconds world machine).2.2) :
      Evolves allowed first last →
        Evolves allowed first (last.runRealtime host pace passes world).2.2

/-! ### Properties that steps and ticks keep -/

/-- A property that is kept by steps and ticks and looks at no more than the rate of the timers. -/
structure Stable (property : Machine → Prop) : Prop where
  /-- A step keeps the property, however it ends. -/
  step : ∀ machine, property machine → property machine.step.2
  /-- Counting down both timers keeps the property. -/
  countdown : ∀ machine, property machine →
    property { machine with registers := machine.registers.tickTimers }
  /-- Of the driver the property looks at the rate only, and not at a request to stop. -/
  driver : ∀ machine timers stopRequested, timers.rate = machine.timers.rate → property machine →
    property { machine with timers, stopRequested }

namespace Stable

variable {property : Machine → Prop} {machine : Machine}

/-- Any number of steps keeps the property. -/
theorem stepMany (stable : Stable property) (budget : Nat) (kept : property machine) :
    property (Machine.stepMany budget machine).2 := by
  -- A run goes on only from the machine that a step has left.
  induction budget generalizing machine with
  | zero => exact kept
  | succ budget ih =>
    have next := stable.step machine kept
    unfold Machine.stepMany
    split
    · exact kept
    · split
      · rename_i stepped
        rw [stepped] at next
        exact ih next
      · rename_i stepped
        rwa [stepped] at next
      · rename_i stepped
        rwa [stepped] at next

/-- A headless run keeps the property. -/
theorem run (stable : Stable property) (limit : Int) (kept : property machine) :
    property (machine.run limit).2 := by
  -- The verdict of a run is read off the machine that its steps have left.
  have left := stable.stepMany (limit - machine.registers.cycleCount).toNat kept
  unfold Machine.run
  split
  · rename_i ran
    rwa [ran] at left
  · rename_i ran
    rw [ran] at left
    split <;> exact left

/-- Any number of ticks keeps the property. -/
theorem tickMany (stable : Stable property) (count : Nat) (timers : Timers Tone)
    (rate : timers.rate = machine.timers.rate) (kept : property machine) :
    property { machine with
      registers := (timers.tickMany machine.registers count).1
      timers := (timers.tickMany machine.registers count).2 } := by
  -- Each tick counts down and then only turns to the driver.
  induction count generalizing machine timers with
  | zero => exact stable.driver machine timers machine.stopRequested rate kept
  | succ count ih =>
    exact @ih { machine with registers := machine.registers.tickTimers }
      (timers.tick machine.registers).2 rate (stable.countdown machine kept)

/-- Ticks in a row keep the property. -/
theorem ticks (stable : Stable property) (count : Nat) (kept : property machine) :
    property (machine.tickMany count) :=
  stable.tickMany count machine.timers rfl kept

/-- A single tick keeps the property. -/
theorem tick (stable : Stable property) (kept : property machine) : property machine.tick :=
  stable.tickMany 1 machine.timers rfl kept

/-- Turning seconds into ticks keeps the property. -/
theorem advance (stable : Stable property) (seconds : Float) (kept : property machine) :
    property (machine.advanceTimers seconds).2 := by
  simp only [Machine.advanceTimers, Timers.advance]
  split
  · -- A time that is no number changes nothing but the driver.
    exact stable.driver machine _ machine.stopRequested rfl kept
  · exact stable.tickMany _ _ rfl kept

/-- A pass of the realtime loop up to its move keeps the property. -/
theorem pass (stable : Stable property) (pace : Pace) (schedule : Schedule) (now : Float)
    (kept : property machine) : property (machine.pass pace schedule now).2.2 := by
  -- At most the timers have moved before the loop decides what to do.
  have advanced := stable.advance (now - schedule.last) kept
  unfold Machine.pass
  split
  · exact kept
  · cases pace.background with
    | true => exact kept
    | false =>
      simp only [Bool.false_eq_true, if_false]
      split <;> exact advanced

/-- The passes of a realtime loop keep the property, if its host does. -/
theorem passes (stable : Stable property) {σ ε : Type} {host : Host σ ε}
    (sleep : ∀ seconds world machine, property machine →
      property (host.sleep seconds world machine).2.2)
    (pace : Pace) (fuel : Nat) (schedule : Schedule) (world : σ) (kept : property machine) :
    property (Machine.passes host pace fuel schedule world machine).2.2 := by
  -- Each pass hands the machine on after a sleep or a step.
  induction fuel generalizing schedule world machine with
  | zero => exact kept
  | succ fuel ih =>
    rcases look : host.look pace world with ⟨now, ticks, later⟩
    have passed := stable.pass pace schedule now (stable.ticks ticks kept)
    simp only [Machine.passes_succ, look]
    split
    · exact kept
    · split
      · rename_i moved
        rwa [moved] at passed
      · rename_i moved
        rwa [moved] at passed
      · rename_i seconds next ready moved
        rw [moved] at passed
        have slept := sleep seconds later ready passed
        split
        · rename_i awake
          rwa [awake] at slept
        · rename_i awake
          rw [awake] at slept
          exact ih _ _ slept
      · rename_i next ready moved
        rw [moved] at passed
        have stepped := stable.step ready passed
        split
        · rename_i left
          rwa [left] at stepped
        · rename_i left
          rw [left] at stepped
          exact ih _ _ stepped

/-- A realtime run keeps the property, if its host does. -/
theorem runRealtime (stable : Stable property) {σ ε : Type} {host : Host σ ε}
    (sleep : ∀ seconds world machine, property machine →
      property (host.sleep seconds world machine).2.2)
    (pace : Pace) (fuel : Nat) (world : σ) (kept : property machine) :
    property (machine.runRealtime host pace fuel world).2.2 := by
  -- Entering and leaving the loop turn to the driver and to the request to stop only.
  have entered : property (machine.enterRealtime pace) := by
    unfold Machine.enterRealtime
    split <;> exact stable.driver machine _ _ rfl kept
  rcases clock : host.clock world with ⟨start, later⟩
  have looped := stable.passes sleep pace fuel { start, last := start, next := start } later entered
  have ticked := stable.ticks (host.meanwhile pace (Machine.passes host pace fuel
    { start, last := start, next := start } later (machine.enterRealtime pace)).2.1).1 looped
  simp only [Machine.runRealtime_eq, clock, Machine.leaveRealtime]
  refine stable.driver _ _ _ ?_ ticked
  -- A thread is stopped at the rate that the timers had.
  cases pace.background <;> rfl

end Stable

/-- A history keeps a stable property that the other events in it keep. -/
theorem Evolves.keeps {allowed : Event → Prop} {property : Machine → Prop} {first last : Machine}
    (stable : Stable property)
    (events : ∀ event, allowed event → ∀ machine, property machine → property (event.apply machine))
    (history : Evolves allowed first last) (kept : property first) : property last := by
  -- The sleeps of a realtime run are histories of their own.
  induction history with
  | refl machine => exact kept
  | event event may earlier ih => exact events event may _ (ih kept)
  | realtime host pace passes world sleeps earlier slept ih =>
    exact stable.runRealtime slept pace passes world (ih kept)

end Chip8
