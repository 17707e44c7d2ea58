import Chip8.Proofs.Machine.Invariant

/-!
What a fault of the guest program leaves behind.

An instruction makes all its failing checks before its first effect, so a fault changes nothing but
the mode, and the machine stays halted until something is loaded again.
-/

namespace Chip8.Machine

/-- What a fault makes of a running machine. -/
structure StoppedBy (machine : Machine) (fault : Fault) (after : Machine) : Prop where
  /-- Of the register file only the mode changes. -/
  registers : after.registers = { machine.registers with mode := .halted }
  /-- Memory, display, keypad and random bytes are as before. -/
  board : after.board = machine.board
  /-- The driver of the timers, and with it the tone, is as before. -/
  timers : after.timers = machine.timers
  /-- Settings, image and requests to stop are as before. -/
  kept : after.config = machine.config ∧ after.program = machine.program ∧
    after.stopRequested = machine.stopRequested
  /-- The fault is noted. -/
  noted : after.lastError = some fault
  /-- One entry with the fault's message is added to the trace, within the limit. -/
  recorded : ∃ entry : TraceEntry,
    after.recent = (entry :: machine.recent).take machine.config.traceLimit ∧
      entry.error? = some fault.message ∧ entry.fault = some fault ∧
      entry.cycle = machine.registers.cycleCount ∧ entry.pc = machine.registers.pc ∧
      entry.activity = machine.attempt ∧ entry.before = machine.registers ∧
      entry.after = after.registers
  /-- Until something is loaded, every step is refused and changes nothing. -/
  remains : ∀ later, Evolves (fun event => event.restarts = false) after later →
    later.step = (.refused .halted, later)

variable {config : Config} {machine after : Machine} {fault : Fault}

/-- A halted machine refuses every step, which leaves it as it was. -/
theorem step_of_halted (halted : machine.registers.mode = .halted) :
    machine.step = (.refused .halted, machine) := by
  -- The mode is looked at before anything else.
  simp only [step, halted]

/-- Steps and ticks leave a halted machine halted. -/
theorem halted_stable : Stable fun machine => machine.registers.mode = .halted where
  step machine halted := by rwa [step_of_halted halted]
  countdown _ halted := halted
  driver _ _ _ _ halted := halted

/-- An event that loads nothing leaves a halted machine halted. -/
theorem halted_apply (event : Event) (quiet : event.restarts = false)
    (halted : machine.registers.mode = .halted) :
    (event.apply machine).registers.mode = .halted := by
  -- Running and ticking keep the mode, and the other uses touch the board or the driver only.
  cases event with
  | loadImage | loadSource | reset => simp [Event.restarts] at quiet
  | step => exact halted_stable.step machine halted
  | run limit => exact halted_stable.run limit halted
  | tick => exact halted_stable.tick halted
  | advance seconds => exact halted_stable.advance seconds halted
  | press | release | releaseAll | write | writeBlock | fill | stop => exact halted

/-- A halted machine stays halted until something is loaded. -/
theorem halted_evolves {later : Machine}
    (history : Evolves (fun event => event.restarts = false) machine later)
    (halted : machine.registers.mode = .halted) : later.registers.mode = .halted :=
  history.keeps halted_stable (fun event quiet _ kept => halted_apply event quiet kept) halted

/-- A fault on a running machine within the invariant stops it and changes nothing else. -/
theorem Sound.stoppedBy (sound : machine.Sound config) (running : machine.registers.mode = .running)
    (refused : machine.step = (.refused fault, after)) : machine.StoppedBy fault after := by
  unfold Machine.step at refused
  rw [running] at refused
  obtain ⟨-, rfl⟩ := executeNext_refused sound.registers refused
  -- A running machine has no register to fill, so halting has none to forget.
  have idle := sound.waits.settled (by simp [running])
  have registers : machine.registers.halt = { machine.registers with mode := .halted } := by
    rw [Registers.halt, ← idle]
  exact
    { registers
      board := rfl
      timers := rfl
      kept := ⟨rfl, rfl, rfl⟩
      noted := rfl
      recorded := ⟨_, rfl, rfl, rfl, rfl, rfl, rfl, rfl, rfl⟩
      remains := fun later history => step_of_halted (halted_evolves history rfl) }

/--
Faults are atomic.

A word that is refused on a full register file leaves memory, display, keypad and random bytes as
they were, whatever the registers hold.
A fault on a reachable machine halts it, is noted and recorded once, and changes nothing else.
-/
theorem fault_atomic :
    (∀ word (registers : Registers) board fault left, registers.Full →
      execute word registers board = (.error fault, left) → left = board) ∧
    ∀ config (machine : Machine) fault after, machine.Reachable config →
      machine.registers.mode = .running → machine.step = (.refused fault, after) →
        machine.StoppedBy fault after :=
  ⟨fun _ _ _ _ _ full refused => execute_refused_board full refused,
    fun _ _ _ _ reachable running refused => reachable.sound.stoppedBy running refused⟩

/-- A standard machine about to store three digits at the last address of memory. -/
def overrunning : Machine :=
  Event.step.apply ((Event.loadImage [0xAF, 0xFF, 0xF0, 0x33]).apply .standard)

/-- Storing three digits at the last address is refused, as a word and as a step. -/
theorem fault_atomic_overrunning :
    (execute 0xF033 overrunning.registers overrunning.board).2 = overrunning.board ∧
      overrunning.StoppedBy (.outOfBounds .write 4097) overrunning.step.2 := by
  -- The machine is small enough to compute: it runs, and both word and step are refused.
  have full : overrunning.registers.Full := ⟨by decide +kernel, by decide +kernel⟩
  have running : overrunning.registers.mode = .running := by decide +kernel
  have reachable : overrunning.Reachable .standard :=
    ⟨_, .event .step trivial (.event (.loadImage _) trivial (.refl _))⟩
  have word : (execute 0xF033 overrunning.registers overrunning.board).1.isOk = false := by
    decide +kernel
  have step : overrunning.step.1 = .refused (.outOfBounds .write 4097) := by decide +kernel
  refine ⟨?_, fault_atomic.2 _ _ _ _ reachable running (by rw [← step])⟩
  rcases outcome : execute 0xF033 overrunning.registers overrunning.board with
    ⟨fault | result, left⟩
  · exact fault_atomic.1 _ _ _ _ _ full outcome
  · rw [outcome] at word
    cases word

end Chip8.Machine
