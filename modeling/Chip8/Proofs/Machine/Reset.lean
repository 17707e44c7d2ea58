import Chip8.Proofs.Machine.Program
import Chip8.Proofs.Machine.Uses

/-!
Machines after a load or a reset.

Nothing that a machine went through before can be told from it afterwards, but for the keys that
are held and the random bytes that were drawn.
-/

namespace Chip8

/-- What the past of a machine cannot change about its settings and its image. -/
structure Machine.Equipped (config : Config) (machine : Machine) : Prop where
  /-- Settings never change. -/
  settings : machine.config = config
  /-- The timers tick at the rate of the settings. -/
  rate : machine.timers.rate = config.timerRate
  /-- The remembered image fits in memory behind the entry point. -/
  fits : config.entryPoint + machine.program.length ≤ memorySize

namespace Machine.Equipped

variable {config : Config} {machine : Machine}

/-- A machine at power-on is equipped, if images can be loaded at its entry point. -/
theorem withRandom (high : config.entryPoint < memorySize) (random : ByteSource) :
    (Machine.withRandom config random).Equipped config where
  settings := rfl
  rate := rfl
  fits := by
    -- No image is remembered yet.
    simpa [Machine.withRandom] using Int.le_of_lt high

/-- A machine with the same settings, rate and image is equipped. -/
theorem of_same (equipped : machine.Equipped config) {other : Machine}
    (settings : other.config = machine.config) (rate : other.timers.rate = machine.timers.rate)
    (program : other.program = machine.program) : other.Equipped config :=
  ⟨settings.trans equipped.settings, rate.trans equipped.rate, by rw [program]; exact equipped.fits⟩

/-- Taking note of a failed cycle leaves the equipment as it is. -/
theorem fail (equipped : machine.Equipped config) (activity : Activity) (fault : Fault) :
    (machine.fail activity fault).2.Equipped config := by
  -- A machine that is stopped has another mode and one more entry.
  unfold Machine.fail
  split
  · exact equipped.of_same rfl rfl rfl
  · exact equipped

/-- A step leaves the equipment as it is. -/
theorem step (equipped : machine.Equipped config) : machine.step.2.Equipped config := by
  unfold Machine.step
  split
  · exact equipped
  · -- A poll moves keypad, registers and trace.
    unfold Machine.pollKey
    split
    · exact equipped
    · dsimp only
      split
      · exact equipped.of_same rfl rfl rfl
      · split
        · exact equipped.of_same rfl rfl rfl
        · exact equipped.of_same rfl rfl rfl
  · -- A word moves board, registers, tone and trace.
    cases fetched : machine.board.memory.readWord machine.registers.pc with
    | error fault =>
      rw [executeNext_of_unfetched fetched]
      exact equipped.fail .unfetched fault
    | ok word =>
      rw [executeNext_of_fetched fetched]
      rcases execute word machine.registers machine.board with ⟨fault | result, left⟩
      · have landed : ({ machine with board := left }).Equipped config :=
          equipped.of_same rfl rfl rfl
        exact landed.fail (.executed word) fault
      · exact equipped.of_same rfl rfl rfl

/-- Steps and ticks leave the equipment as it is. -/
theorem stable (config : Config) : Stable (Machine.Equipped config) where
  step _ equipped := equipped.step
  countdown _ equipped := equipped.of_same rfl rfl rfl
  driver _ _ _ rate equipped := equipped.of_same rfl rate rfl

/-- An image that is loaded fits, and nothing else of the equipment changes. -/
theorem loadImage (equipped : machine.Equipped config) {image : List Byte} {left : Machine}
    (done : machine.loadImage image = (.ok (), left)) : left.Equipped config := by
  obtain ⟨⟨-, -, fits⟩, rfl⟩ := loadImage_done done
  rw [equipped.settings] at fits
  exact ⟨equipped.settings, equipped.rate, fits⟩

/-- Every event leaves settings and rate as they are, and remembers only images that fit. -/
theorem apply (equipped : machine.Equipped config) (event : Event) :
    (event.apply machine).Equipped config := by
  -- Only loads replace the image, and a step or a tick never does.
  cases event with
  | loadImage image =>
    exact (machine.loadImage_atomic image).keeps equipped fun _ => equipped.loadImage
  | loadSource source =>
    refine (machine.loadSource_atomic source).keeps equipped fun left done => ?_
    obtain ⟨image, done⟩ := Machine.loadSource_done done
    exact equipped.loadImage done
  | reset =>
    exact (machine.loadImage_atomic machine.program).keeps equipped fun _ => equipped.loadImage
  | step => exact equipped.step
  | run limit => exact (stable config).run limit equipped
  | tick => exact (stable config).tick equipped
  | advance seconds => exact (stable config).advance seconds equipped
  | press | release | releaseAll | write | writeBlock | fill | stop =>
    exact equipped.of_same rfl rfl rfl

/-- Any events leave the equipment as it is. -/
theorem after (equipped : machine.Equipped config) (events : List Event) :
    (machine.after events).Equipped config := by
  induction events generalizing machine with
  | nil => exact equipped
  | cons event rest ih => exact ih (equipped.apply event)

/-- A reachable machine is equipped, if images can be loaded at its entry point. -/
theorem of_reachable (high : config.entryPoint < memorySize)
    (reachable : machine.Reachable config) : machine.Equipped config := by
  -- The equipment at power-on is carried along the history.
  obtain ⟨random, history⟩ := reachable
  exact history.keeps (stable config) (fun event _ _ equipped => equipped.apply event)
    (.withRandom high random)

end Machine.Equipped

/-- What a host can read off a machine. -/
structure Machine.Face where
  registers : Registers
  memory : Memory
  display : Display
  held : Vector Bool 16
  random : ByteSource
  trace : List TraceEntry
  lastError : Option Fault
  program : List Byte
  ticks : Nat
  /-- The tone sounds. -/
  sounding : Bool

namespace Machine

/-- What a host can read off the machine. -/
def face (machine : Machine) : Face where
  registers := machine.registers
  memory := machine.board.memory
  display := machine.board.display
  held := machine.board.keypad.held
  random := machine.board.random
  trace := machine.trace
  lastError := machine.lastError
  program := machine.program
  ticks := machine.timers.ticks
  sounding := machine.timers.tone.active

/-- The machine is like another one to every host that uses both in the same way. -/
def PassesFor (machine other : Machine) : Prop :=
  ∀ {σ ε : Type} (uses : List (Use σ ε)), (∀ use ∈ uses, use.Blind) →
    machine.replies uses = other.replies uses ∧
      (machine.used uses).face = (other.used uses).face ∧
      ((machine.used uses).registers.mode = .awaitingKey →
        ∀ later : List (Use σ ε), (∀ use ∈ later, use.Blind) →
          ((machine.used uses).used later).board.keypad =
            ((other.used uses).used later).board.keypad)

/-- The machine is like a new one that has loaded an image, whatever is queued in its keypad. -/
def AsNew (config : Config) (image : List Byte) (machine : Machine) : Prop :=
  ∀ keypad, keypad.held = machine.board.keypad.held →
    ∃ fresh, ((withRandom config machine.board.random).withKeypad keypad).loadImage image =
      (.ok (), fresh) ∧ machine.PassesFor fresh

variable {config : Config} {machine left : Machine} {image : List Byte}

/-- Machines that are alike show the same face. -/
theorem Alike.face {view : View} {first second : Machine} (alike : Alike view first second) :
    second.face = first.face := by
  -- Ticks and tone are among what the drivers show.
  have ticks : second.timers.ticks = first.timers.ticks := congrArg (·.ticks) alike.timers.symm
  have sounding : second.timers.tone.active = first.timers.tone.active :=
    congrArg (·.tone.active) alike.timers.symm
  simp only [Machine.face, ticks, sounding]
  rw [alike.kept]
  rfl

/-- Machines that are alike when nothing but waits looks at presses pass for each other. -/
theorem Alike.passesFor {first second : Machine} (alike : Alike ⟨false, false⟩ first second) :
    second.PassesFor first := by
  intro σ ε uses blind
  obtain ⟨replies, left⟩ := alike.uses uses blind
  refine ⟨replies, left.face, fun waiting later blind => ?_⟩
  -- In a wait the queues are the same, and they are so from then on.
  have queue := left.presses (.inr (left.registers ▸ waiting))
  have watched : Alike ⟨true, false⟩ (first.used uses) (second.used uses) :=
    ⟨left.kept, left.timers, fun _ => queue, left.stop⟩
  exact (watched.uses later blind).2.keypad (.inl rfl)

/-- A machine that has loaded an image is as new. -/
theorem asNew (sound : machine.Sound config) (equipped : machine.Equipped config)
    (done : machine.loadImage image = (.ok (), left)) : left.AsNew config image := by
  obtain ⟨⟨low, high, fits⟩, rfl⟩ := loadImage_done done
  rw [equipped.settings] at low high fits
  intro keypad held
  refine ⟨_, loadImage_eq _ low high fits, Alike.passesFor ⟨?_, ?_, fun looked => ?_, nofun⟩⟩
  · -- Memory, display and registers are made from the settings and the image.
    obtain ⟨up, queue⟩ := keypad
    obtain rfl : up = machine.board.keypad.held := held
    have cleared : machine.board.display.clear = (Display.blank config.displayMode).clear := by
      rw [← sound.display]
      rfl
    simp only [loaded, restart, withHidden, withMemory, cleared, equipped.settings]
    rfl
  · -- Ticks are counted from zero again, at the same rate, and the tone is told to be silent.
    have fresh := Timers.setTone_seen (withRandom config machine.board.random).timers.reset false
    have used := Timers.setTone_seen machine.timers.reset false
    refine fresh.trans (Eq.trans ?_ used.symm)
    simp only [Timers.reset, Timers.seen, equipped.rate]
    rfl
  · -- A machine at its entry point does not wait.
    rcases looked with shown | waiting
    · cases shown
    · cases waiting

/-- A load or a reset that is refused changes nothing. -/
theorem refused_restart (event : Event) (restarts : event.restarts = true)
    (refused : event.answer machine ≠ .done) : event.apply machine = machine := by
  -- An answer other than a refusal would have been told as done.
  have keeps : ∀ {ε : Type} {attempt : Except ε Unit × Machine} (refusal : ε → Answer),
      Atomic machine attempt → Answer.of refusal attempt.1 ≠ .done → attempt.2 = machine := by
    rintro ε ⟨reason | ⟨⟩, left⟩ refusal atomic refused
    · exact atomic reason left rfl
    · exact absurd rfl refused
  cases event with
  | loadImage image => exact keeps .refused (machine.loadImage_atomic image) refused
  | loadSource source => exact keeps .unloaded (machine.loadSource_atomic source) refused
  | reset => exact keeps .refused (machine.loadImage_atomic machine.program) refused
  | _ => cases restarts

/--
A reset leaves no residue.

A reachable machine whose entry point is a writable address can always be reset.
After that, and after every other successful load, it passes for a new machine that has loaded the
same image, if only the same keys are held and the same random bytes are to come.
A load or a reset that is refused changes nothing.
-/
theorem reset_leaves_no_residue (low : 0x200 ≤ config.entryPoint)
    (high : config.entryPoint < 0x1000) (reachable : machine.Reachable config) :
    (∃ reset, machine.reset = (.ok (), reset) ∧ reset.AsNew config machine.program) ∧
      (∀ image left, machine.loadImage image = (.ok (), left) → left.AsNew config image) ∧
      ∀ event : Event, event.restarts = true → event.answer machine ≠ .done →
        event.apply machine = machine := by
  -- The remembered image has been checked, so loading it again cannot be refused.
  have equipped := Equipped.of_reachable high reachable
  have loads : ∀ image left, machine.loadImage image = (.ok (), left) →
      left.AsNew config image := fun image left done => asNew reachable.sound equipped done
  have ready : machine.reset = (.ok (), _) := loadImage_eq machine
    (by rw [equipped.settings]; exact low) (by rw [equipped.settings]; exact high)
    (by rw [equipped.settings]; exact equipped.fits)
  exact ⟨⟨_, ready, loads _ _ ready⟩, loads, refused_restart⟩

/-- A standard machine in a wait for a key, while one key is held and another press is queued. -/
def haunted : Machine :=
  Machine.standard.after
    [.loadImage [0xF0, 0x0A], .press 3, .step, .press 5, .release 5, .tick]

/-- The wait and the queued press of the machine leave no residue behind a reset. -/
theorem reset_leaves_no_residue_haunted :
    haunted.registers.mode = .awaitingKey ∧ haunted.board.keypad.queue = [5] ∧
      ∃ reset, haunted.reset = (.ok (), reset) ∧ reset.AsNew .standard [0xF0, 0x0A] := by
  -- What the machine went through is computed.
  have program : haunted.program = [0xF0, 0x0A] := by decide +kernel
  have reachable : haunted.Reachable .standard := Reachable.standard.after _
  obtain ⟨⟨reset, done, asNew⟩, -⟩ :=
    reset_leaves_no_residue (by decide) (by decide) reachable
  exact ⟨by decide +kernel, by decide +kernel, reset, done, program ▸ asNew⟩

end Machine

end Chip8
