import Chip8.Proofs.Machine.History
import Chip8.Proofs.Machine.Step

/-!
What holds of every machine that its host did not put together by hand.

Whatever is loaded and run, in any order and with any faults, the register file keeps its ranges,
and queue, trace and display keep their sizes.
-/

namespace Chip8

/-- A key register is set exactly in a wait, and a wait is at an address that was fetched. -/
structure Registers.Waits (registers : Registers) : Prop where
  /-- A waiting machine knows its register, and can fetch its instruction again. -/
  waiting : registers.mode = .awaitingKey →
    Fetchable registers.pc ∧ ∃ x : Nibble, registers.keyRegister = some (x.val : Int)
  /-- No other machine has a register to fill. -/
  settled : registers.mode ≠ .awaitingKey → registers.keyRegister = none

/-- The invariant of all machines with the given settings. -/
structure Machine.Sound (config : Config) (machine : Machine) : Prop where
  /-- Settings never change. -/
  settings : machine.config = config
  /-- The register file is in its ranges. -/
  registers : machine.registers.Bounded config.entryPoint
  /-- A pending wait can be ended. -/
  waits : machine.registers.Waits
  /-- The display has the size of the settings. -/
  display : machine.board.display.mode = config.displayMode
  /-- The queue of presses is within its capacity. -/
  presses : machine.board.keypad.queue.length ≤ Keypad.capacity
  /-- The trace is within its limit. -/
  entries : machine.recent.length ≤ config.traceLimit

namespace Registers.Waits

variable {registers : Registers}

/-- A running register file without a key register is not in a wait. -/
theorem of_running (running : registers.mode = .running) (idle : registers.keyRegister = none) :
    registers.Waits :=
  ⟨fun waiting => by simp [running] at waiting, fun _ => idle⟩

/-- A halted register file is not in a wait. -/
theorem halt (registers : Registers) : registers.halt.Waits :=
  ⟨fun waiting => by simp [Registers.halt] at waiting, fun _ => rfl⟩

end Registers.Waits

namespace Machine.Sound

variable {config : Config} {machine : Machine}

/-- Halting keeps the ranges of the register file. -/
theorem halted (sound : machine.Sound config) : machine.registers.halt.Bounded config.entryPoint :=
  { sound.registers with }

/-- An entry that is recorded keeps the trace within its limit. -/
theorem record (sound : machine.Sound config) (entry : TraceEntry) :
    (machine.record entry).Sound config := by
  -- A new entry pushes the oldest ones out.
  refine { sound with entries := ?_ }
  rw [← sound.settings]
  exact List.length_take_le _ _

/-- A machine that was stopped by a fault is sound. -/
theorem stopped (sound : machine.Sound config) (activity : Activity) (fault : Fault) :
    (machine.stopped activity fault).Sound config :=
  -- The note of the fault is not part of the invariant.
  ({ sound with registers := sound.halted, waits := .halt _ } : Machine.Sound config
    { machine with registers := machine.registers.halt, lastError := some fault }).record _

/-- Settling in an idle loop keeps the ranges. -/
theorem settle {result : Registers} (word : Word) (machine : Machine)
    (bounded : result.Bounded config.entryPoint) (waits : result.Waits) :
    (machine.settle word result).Bounded config.entryPoint ∧
      (machine.settle word result).Waits := by
  -- An idle loop is halted in place, and any other result is kept.
  unfold Machine.settle
  split
  · exact ⟨{ bounded with }, .halt result⟩
  · exact ⟨bounded, waits⟩

/-- Executing the next word keeps the invariant. -/
theorem executeNext (sound : machine.Sound config) (running : machine.registers.mode = .running) :
    machine.executeNext.2.Sound config := by
  have idle := sound.waits.settled (by simp [running])
  rcases outcome : machine.executeNext with ⟨entry | - | fault, after⟩
  · obtain ⟨word, board, result, fetched, executed, rfl⟩ := executeNext_completed outcome
    have fetchable := Memory.fetchable_of_readWord fetched
    have bounded := execute_bounded sound.registers fetchable executed
    -- The result runs on, or waits at the address of its instruction.
    have waits : result.Waits := by
      rcases execute_mode sound.registers executed with ⟨same, kept⟩ | ⟨waiting, register, stays⟩
      · exact .of_running (same.trans running) (kept.trans idle)
      · exact ⟨fun _ => ⟨stays ▸ fetchable, register⟩, fun other => absurd waiting other⟩
    obtain ⟨display, keypad⟩ := execute_board word machine.registers machine.board
    rw [executed] at display keypad
    obtain ⟨settledBounded, settledWaits⟩ := settle word machine bounded waits
    unfold moved
    refine Sound.record ?_ _
    refine { sound with
      registers := settledBounded, waits := settledWaits
      display := display.trans sound.display, presses := ?_ }
    rcases keypad with same | flushed
    · exact same ▸ sound.presses
    · rw [flushed]
      exact Nat.zero_le _
  · exact absurd outcome (executeNext_ne_waiting machine after)
  · obtain ⟨-, rfl⟩ := executeNext_refused sound.registers outcome
    exact sound.stopped machine.attempt fault

/-- Polling for a key keeps the invariant. -/
theorem pollKey (sound : machine.Sound config)
    (waiting : machine.registers.mode = .awaitingKey) : machine.pollKey.2.Sound config := by
  -- A wait has a register to fill and an address to go on from, so its key can be delivered.
  obtain ⟨fetchable, x, register⟩ := sound.waits.waiting waiting
  cases queued : machine.board.keypad.queue with
  | nil => rwa [pollKey_empty queued]
  | cons key rest =>
    obtain ⟨word, polled⟩ := pollKey_press sound.registers.toFull register fetchable queued
    rw [polled]
    have bounded := sound.registers.write x.val key.val
    have presses := sound.presses
    rw [queued, List.length_cons] at presses
    refine Sound.record ?_ _
    refine { sound with
      registers := Registers.Bounded.countCycle (.advance { bounded with } fetchable)
      waits := .of_running rfl rfl, presses := ?_ }
    exact Nat.le_of_succ_le presses

/-- A step keeps the invariant, however it ends. -/
theorem step (sound : machine.Sound config) : machine.step.2.Sound config := by
  -- A halted machine stays, a waiting one polls and a running one executes.
  unfold Machine.step
  split
  · exact sound
  · exact sound.pollKey ‹_›
  · exact sound.executeNext ‹_›

/-- Steps and ticks keep the invariant, which does not look at the driver of the timers. -/
theorem stable (config : Config) : Stable (Machine.Sound config) where
  step _ sound := sound.step
  countdown _ sound := { sound with
    registers := sound.registers.tickTimers, waits := ⟨sound.waits.waiting, sound.waits.settled⟩ }
  driver _ _ _ _ sound := { sound with }

/-- A machine at power-on is sound, whatever its random bytes are. -/
theorem withRandom (config : Config) (random : ByteSource) :
    (Machine.withRandom config random).Sound config where
  settings := rfl
  registers := Registers.atEntry_bounded config.entryPoint
  waits := .of_running rfl rfl
  display := rfl
  presses := Nat.zero_le _
  entries := Nat.zero_le _

/-- A restarted machine is sound. -/
theorem restart (sound : machine.Sound config) : machine.restart.Sound config :=
  { sound with
    registers := by
      -- The registers are those at the entry, and memory and settings are kept.
      rw [← sound.settings]
      exact Registers.atEntry_bounded _
    waits := .of_running rfl rfl
    display := sound.display
    entries := Nat.zero_le _ }

/-- A loaded machine is sound. -/
theorem loaded (sound : machine.Sound config) (image : List Byte) (memory : Memory) :
    (machine.loaded image memory).Sound config := by
  -- Filling memory is outside the invariant, and the restart behind it renews the rest.
  have ready : ({ machine.withMemory memory with program := image }).Sound config := { sound with }
  exact ready.restart

/-- What a load of an image leaves is sound. -/
theorem loadImage (sound : machine.Sound config) (image : List Byte) :
    (machine.loadImage image).2.Sound config :=
  Machine.loadImage_keeps sound fun memory _ => sound.loaded image memory

/-- What a load of a source text leaves is sound. -/
theorem loadSource (sound : machine.Sound config) (source : List Char) :
    (machine.loadSource source).2.Sound config :=
  Machine.loadSource_keeps sound fun image memory _ => sound.loaded image memory

/-- Another keypad whose queue is within its capacity can take the place of the present one. -/
theorem withKeypad (sound : machine.Sound config) {keypad : Keypad}
    (presses : keypad.queue.length ≤ Keypad.capacity) : (machine.withKeypad keypad).Sound config :=
  { sound with presses }

/-- Every event keeps the invariant. -/
theorem apply (sound : machine.Sound config) (event : Event) :
    (event.apply machine).Sound config := by
  -- Loads and keys are kept where they are refused, and writes do not touch the invariant.
  cases event with
  | loadImage image => exact sound.loadImage image
  | loadSource source => exact sound.loadSource source
  | reset => exact sound.loadImage machine.program
  | step => exact sound.step
  | run limit => exact (stable config).run limit sound
  | tick => exact (stable config).tick sound
  | advance seconds => exact (stable config).advance seconds sound
  | press number => exact sound.withKeypad (Keypad.press_queue_length sound.presses number)
  | release number =>
    have same := Keypad.release_queue machine.board.keypad number
    exact sound.withKeypad (le_of_eq_of_le (congrArg List.length same) sound.presses)
  | releaseAll => exact sound.withKeypad sound.presses
  | write | writeBlock | fill | stop => exact { sound with }

/-- Whatever a host does with a machine, it stays sound. -/
theorem evolves {allowed : Event → Prop} {last : Machine} (sound : machine.Sound config)
    (history : Evolves allowed machine last) : last.Sound config :=
  -- Events and steps keep it, and histories are made of these.
  history.keeps (stable config) (fun event _ _ kept => kept.apply event) sound

end Machine.Sound

/-- The machines that come of a machine at power-on by any history. -/
def Machine.Reachable (config : Config) (machine : Machine) : Prop :=
  ∃ random, Evolves (fun _ => True) (.withRandom config random) machine

/-- A reachable machine is sound. -/
theorem Machine.Reachable.sound {config : Config} {machine : Machine}
    (reachable : machine.Reachable config) : machine.Sound config := by
  -- The invariant holds at power-on and is carried along the history.
  obtain ⟨random, history⟩ := reachable
  exact (Sound.withRandom config random).evolves history

end Chip8
