import Chip8.Proofs.Machine.Invariant

/-!
The bounds that a reader of a machine can count on after any history.

They follow from the invariant once the entry point lies in the writable part of memory.
-/

namespace Chip8

namespace Registers

/-- A register file in its ranges, with a wait exactly if a register is set, passes validation. -/
theorem isValid_of_bounded {entry : Int} {registers : Registers}
    (bounded : registers.Bounded entry) (waits : registers.Waits)
    (counter : 0 ≤ registers.pc ∧ registers.pc ≤ 0x10FE) : registers.isValid = true := by
  have bytes := bounded.bytes
  have wide : ∀ frame ∈ registers.stack, 0 ≤ frame ∧ frame ≤ 0xFFFF := fun frame member => by
    obtain ⟨low, high⟩ := bounded.calls frame member
    omega
  -- The mode decides whether a register is set.
  have key : registers.awaitingKey = registers.keyRegister.isSome := by
    by_cases waiting : registers.mode = .awaitingKey
    · obtain ⟨-, x, register⟩ := waits.waiting waiting
      simp [awaitingKey, waiting, register]
    · simp [awaitingKey, waiting, waits.settled waiting]
  have index := bounded.index
  have pointer := bounded.pointer
  have delay := bounded.delay
  have sound := bounded.sound
  simp only [isValid, bounded.general, bounded.frames, key, Bool.and_eq_true, List.all_eq_true,
    decide_eq_true_eq, beq_self_eq_true, true_and, and_true]
  refine ⟨⟨⟨⟨⟨⟨⟨bytes, wide⟩, ?_⟩, ?_⟩, ?_⟩, delay⟩, sound⟩, bounded.cycles⟩ <;> omega

end Registers

namespace Memory

/-- The glyphs take eighty bytes. -/
theorem font_length : font.length = 80 := by decide

/-- The address space has 4096 bytes. -/
@[simp]
theorem toList_length (memory : Memory) : memory.toList.length = memorySize := by
  -- There is one byte for each address.
  simp [toList]

/-- The page below the writable bytes holds the font, and zeros behind it. -/
theorem toList_font (memory : Memory) :
    memory.toList.take programStart = font ++ List.replicate 432 0 := by
  have size : (memory.toList.take programStart).length =
      (font ++ List.replicate 432 (0 : Byte)).length := by
    rw [List.length_take, toList_length, List.length_append, List.length_replicate, font_length,
      programStart, memorySize]
    rfl
  refine List.ext_getElem size fun address first second => ?_
  have inside : address < programStart := by
    rw [List.length_take] at first
    omega
  -- Every address of the page lies below the writable bytes.
  have held : memory.byteAt address = font.getD address 0 := by rw [byteAt, if_pos inside]
  rw [List.getElem_take]
  simp only [toList, List.getElem_map, List.getElem_range, held]
  by_cases glyph : address < font.length
  · rw [List.getElem_append_left glyph, List.getD_eq_getElem?_getD, List.getElem?_eq_getElem glyph]
    rfl
  · rw [List.getElem_append_right (by omega), List.getElem_replicate,
      List.getD_eq_getElem?_getD, List.getElem?_eq_none (by omega)]
    rfl

end Memory

/-- What a reader of a machine can count on. -/
structure Machine.WellFormed (config : Config) (machine : Machine) : Prop where
  /-- The register file passes its own validation. -/
  valid : machine.registers.isValid = true
  /-- There are sixteen general registers, each of which holds a byte. -/
  general : machine.registers.v.length = 16 ∧
    ∀ value ∈ machine.registers.v, 0 ≤ value ∧ value ≤ 255
  /-- The address register holds twelve bits. -/
  index : 0 ≤ machine.registers.i ∧ machine.registers.i ≤ 0xFFF
  /-- The program counter is at most the farthest indexed jump. -/
  counter : 0 ≤ machine.registers.pc ∧ machine.registers.pc ≤ 0x10FE
  /-- Moving on by one or two instructions never wraps. -/
  unwrapped : ∀ count, 0 ≤ count → count ≤ 2 →
    (machine.registers.advanceBy count).pc = machine.registers.pc + 2 * count
  /-- The stack pointer is a place of the ring. -/
  pointer : 0 ≤ machine.registers.sp ∧ machine.registers.sp ≤ 15
  /-- There are sixteen frames, each of which is an address at which a word can be fetched. -/
  frames : machine.registers.stack.length = 16 ∧
    ∀ frame ∈ machine.registers.stack, 0 ≤ frame ∧ frame ≤ 0xFFE
  /-- Both timers hold bytes. -/
  timers : (0 ≤ machine.registers.delayTimer ∧ machine.registers.delayTimer ≤ 255) ∧
    0 ≤ machine.registers.soundTimer ∧ machine.registers.soundTimer ≤ 255
  /-- One of the sixteen registers is set to be filled exactly in a wait. -/
  register : (∃ x, machine.registers.keyRegister = some x ∧ 0 ≤ x ∧ x ≤ 15) ↔
    machine.registers.mode = .awaitingKey
  /-- Outside a wait no register is set to be filled. -/
  unset : machine.registers.mode ≠ .awaitingKey → machine.registers.keyRegister = none
  /-- A wait is at an address at which a word can be fetched. -/
  wait : machine.registers.mode = .awaitingKey → machine.registers.pc ≤ 0xFFE
  /-- Memory has 4096 bytes, the first 512 of which are the font page. -/
  memory : machine.board.memory.toList.length = 4096 ∧
    machine.board.memory.toList.take 512 = Memory.fresh.toList.take 512
  /-- The display has the rows and columns of the configured mode. -/
  pixels : machine.board.display.rows.length = config.displayMode.height ∧
    ∀ row ∈ machine.board.display.rows, row.length = config.displayMode.width
  /-- At most sixteen presses are queued, and each is one of the sixteen keys. -/
  presses : machine.board.keypad.queue.length ≤ 16 ∧
    ∀ key ∈ machine.board.keypad.queue, key.val ≤ 15
  /-- The trace is within its limit. -/
  entries : machine.trace.length ≤ config.traceLimit

namespace Machine

variable {config : Config} {machine after : Machine} {fault : Fault}

/-- The invariant bounds everything, if the entry point is a writable address. -/
theorem Sound.wellFormed (sound : machine.Sound config) (low : 0x200 ≤ config.entryPoint)
    (high : config.entryPoint < 0x1000) : machine.WellFormed config := by
  -- A writable entry point is itself below the farthest indexed jump.
  have bounded := sound.registers
  have counter : 0 ≤ machine.registers.pc ∧ machine.registers.pc ≤ 0x10FE := by
    rcases bounded.counter with entered | inside <;> omega
  refine
    { valid := Registers.isValid_of_bounded bounded sound.waits counter
      general := ⟨bounded.general, bounded.bytes⟩
      index := bounded.index
      counter
      unwrapped := ?_
      pointer := bounded.pointer
      frames := ⟨bounded.frames, bounded.calls⟩
      timers := ⟨bounded.delay, bounded.sound⟩
      register := ?_
      unset := sound.waits.settled
      wait := fun waiting => (sound.waits.waiting waiting).1.2
      memory := ⟨Memory.toList_length _, by
        rw [← programStart, Memory.toList_font, Memory.toList_font]⟩
      pixels := ?_
      presses := ⟨sound.presses, fun key _ => by omega⟩
      entries := by simpa [trace] using sound.entries }
  · -- Two instructions beyond the farthest jump are still far below sixteen bits.
    intro count first last
    simp only [Registers.advanceBy]
    omega
  · constructor
    · -- Outside a wait the invariant says that no register is set.
      rintro ⟨x, register, -⟩
      by_cases waiting : machine.registers.mode = .awaitingKey
      · exact waiting
      · simp [sound.waits.settled waiting] at register
    · intro waiting
      obtain ⟨-, x, register⟩ := sound.waits.waiting waiting
      exact ⟨x.val, register, by omega, by omega⟩
  · -- Rows and columns are read off the mode of the display.
    rw [← sound.display]
    simp [Display.rows, Display.row]

/-- A sound machine refuses a step only when it has halted, or by a fault of its program. -/
theorem Sound.step_refused (sound : machine.Sound config)
    (refused : machine.step = (.refused fault, after)) : fault = .halted ∨ fault.IsGuest := by
  unfold Machine.step at refused
  split at refused
  · exact .inl (StepResult.refused.inj (Prod.mk.inj refused).1).symm
  · -- A poll is never refused, because its wait can be ended.
    rename_i waiting
    obtain ⟨fetchable, x, register⟩ := sound.waits.waiting waiting
    cases queued : machine.board.keypad.queue with
    | nil => simp [pollKey_empty queued] at refused
    | cons key rest =>
      obtain ⟨word, polled⟩ :=
        pollKey_press sound.registers.toFull register fetchable queued
      simp [polled] at refused
  · -- Executing a word meets faults of the program only.
    exact .inr (executeNext_refused sound.registers refused).1

/--
Every reachable machine is well formed.

A step of it is therefore refused only because it has halted, because memory refused an access, or
because a word has no instruction.
-/
theorem wellFormed_of_reachable (low : 0x200 ≤ config.entryPoint)
    (high : config.entryPoint < 0x1000) (reachable : machine.Reachable config) :
    machine.WellFormed config ∧
      ∀ fault after, machine.step = (.refused fault, after) →
        fault = .halted ∨ (∃ access location, fault = .outOfBounds access location) ∨
          ∃ word location, fault = .unknownOpcode word location :=
  -- The invariant holds of reachable machines and bounds what a step can meet.
  ⟨reachable.sound.wellFormed low high, fun _ _ refused => reachable.sound.step_refused refused⟩

/-- A standard machine that has loaded a wait for a key and taken one step. -/
def listening : Machine :=
  Event.step.apply ((Event.loadImage [0xF0, 0x0A]).apply .standard)

/-- The machine that waits for a key is well formed. -/
theorem wellFormed_listening :
    listening.registers.mode = .awaitingKey ∧ listening.WellFormed .standard ∧
      ∀ fault after, listening.step = (.refused fault, after) →
        fault = .halted ∨ (∃ access location, fault = .outOfBounds access location) ∨
          ∃ word location, fault = .unknownOpcode word location :=
  -- The wait is reached by computation, and the rest is the theorem at this machine.
  ⟨by decide +kernel,
    wellFormed_of_reachable (by decide) (by decide)
      ⟨_, .event .step trivial (.event (.loadImage _) trivial (.refl _))⟩⟩

end Machine

end Chip8
