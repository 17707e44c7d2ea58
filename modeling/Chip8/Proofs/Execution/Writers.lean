import Chip8.Proofs.Execution.Valid
import Chip8.Proofs.Instruction.Code
import Chip8.Proofs.Memory.Store

/-!
Which words write which part of the state.

A word that is executed leaves every part alone of which it is no writer.
-/

namespace Chip8

/-- A part of the state, apart from the counters of addresses and cycles. -/
inductive Component where
  | general (x : Nibble)
  | index
  | pointer
  | frame (place : Nibble)
  | delay
  | sound
  | mode
  | keyRegister
  | byte (address : Nat)
  | display
  | displaySize
  | heldKeys
  | queue
  | random

/-- A part is after a step what it was before. -/
def Component.Kept (registers result : Registers) (board left : Board) : Component → Prop
  | .general x => result.reg x = registers.reg x
  | .index => result.i = registers.i
  | .pointer => result.sp = registers.sp
  | .frame place => result.stack.getD place.val 0 = registers.stack.getD place.val 0
  | .delay => result.delayTimer = registers.delayTimer
  | .sound => result.soundTimer = registers.soundTimer
  | .mode => result.mode = registers.mode
  | .keyRegister => result.keyRegister = registers.keyRegister
  | .byte address => left.memory.byteAt address = board.memory.byteAt address
  | .display => left.display = board.display
  | .displaySize => left.display.mode = board.display.mode
  | .heldKeys => left.keypad.held = board.keypad.held
  | .queue => left.keypad.queue = board.keypad.queue
  | .random => left.random = board.random

/-- The words that write a part of the state. -/
def Word.Writes (word : Word) (registers : Registers) : Component → Prop
  -- The first register, the flag, or all registers up to the first.
  | .general other =>
    other = word.x ∧ (word.opclass ∈ [0x6, 0x7, 0x8, 0xC] ∨
        word.opclass = 0xF ∧ word.byte = 0x07) ∨
      other = 15 ∧ (word.opclass = 0xD ∨
        word.opclass = 0x8 ∧ word.nibble ∈ [0x4, 0x5, 0x6, 0x7, 0xE]) ∨
      other ≤ word.x ∧ word.opclass = 0xF ∧ word.byte = 0x65
  | .index => word.opclass = 0xA ∨ word.opclass = 0xF ∧ word.byte ∈ [0x1E, 0x29]
  | .pointer => word = 0x00EE ∨ word.opclass = 0x2
  -- A return gives a frame up without erasing it.
  | .frame place => word.opclass = 0x2 ∧ place.val = (registers.sp + 1) % 16
  | .delay => word.opclass = 0xF ∧ word.byte = 0x15
  | .sound => word.opclass = 0xF ∧ word.byte = 0x18
  | .mode | .keyRegister | .queue => word.opclass = 0xF ∧ word.byte = 0x0A
  -- Three digits, or all registers up to the first.
  | .byte address =>
    word.opclass = 0xF ∧ registers.i ≤ address ∧
      (word.byte = 0x33 ∧ address ≤ registers.i + 2 ∨
        word.byte = 0x55 ∧ address ≤ registers.i + word.x.val)
  | .display => word = 0x00E0 ∨ word.opclass = 0xD
  | .displaySize | .heldKeys => False
  | .random => word.opclass = 0xC

/-- Whether a word writes a part can be computed. -/
instance (word : Word) (registers : Registers) (component : Component) :
    Decidable (word.Writes registers component) :=
  match component with
  | .general _ => inferInstanceAs (Decidable (_ ∨ _))
  | .index | .pointer | .display => inferInstanceAs (Decidable (_ ∨ _))
  | .frame _ | .byte _ => inferInstanceAs (Decidable (_ ∧ _))
  | .delay | .sound | .mode | .keyRegister | .queue => inferInstanceAs (Decidable (_ ∧ _))
  | .displaySize | .heldKeys => inferInstanceAs (Decidable False)
  | .random => inferInstanceAs (Decidable (_ = _))

/-- A step that changes no part of the state but some. -/
structure ChangesOnly (written : Component → Prop) (registers result : Registers)
    (board left : Board) : Prop where
  /-- There are as many general registers as before. -/
  general : result.v.length = registers.v.length
  /-- There are as many frames as before. -/
  frames : result.stack.length = registers.stack.length
  /-- The cycles are not counted. -/
  cycles : result.cycleCount = registers.cycleCount
  /-- All other parts are kept. -/
  others : ∀ component, ¬written component → component.Kept registers result board left

namespace ChangesOnly

variable {written : Component → Prop} {registers middle result : Registers}
  {board between left : Board}

/-- Two steps change only what one of them may. -/
theorem trans (first : ChangesOnly written registers middle board between)
    (second : ChangesOnly written middle result between left) :
    ChangesOnly written registers result board left := by
  refine ⟨second.general.trans first.general, second.frames.trans first.frames,
    second.cycles.trans first.cycles, ?_⟩
  intro component other
  -- To be kept is an equation for every component.
  have earlier := first.others component other
  have later := second.others component other
  cases component <;> exact Eq.trans later earlier

/-! ### Single writes -/

/-- The counter of addresses is no part. -/
theorem counter (pc : Int) :
    ChangesOnly written registers { registers with pc } board board := by
  -- Every part is a field of its own, beside the counter.
  refine ⟨rfl, rfl, rfl, ?_⟩
  intro component _
  cases component <;> rfl

/-- A write at a place of the general registers changes the register there. -/
theorem register (place : Nat) (value : Int)
    (writes : ∀ x : Nibble, x.val = place → written (.general x)) :
    ChangesOnly written registers { registers with v := registers.v.set place value }
      board board := by
  -- The file keeps its length, so the other places read what they did.
  refine ⟨List.length_set, rfl, rfl, ?_⟩
  intro component other
  cases component with
  | general x =>
    have apart : place ≠ x.val := fun same => other (writes x same.symm)
    simp [Component.Kept, Registers.reg, List.getD_eq_getElem?_getD, List.getElem?_set_ne apart]
  | _ => rfl

/-- Several writes change the registers at their places. -/
theorem writeAll (writes : List (Int × Int))
    (listed : ∀ write ∈ writes, ∀ x : Nibble, x.val = write.1.toNat → written (.general x)) :
    ChangesOnly written registers
      { registers with v := Registers.writeAll registers.v writes } board board := by
  -- The first write is followed by the others.
  induction writes generalizing registers with
  | nil => exact .counter _
  | cons write rest ih =>
    have first := listed write List.mem_cons_self
    have later := fun other member => listed other (List.mem_cons_of_mem write member)
    exact (ChangesOnly.register write.1.toNat (write.2 % 256) first).trans (ih later)

/-- The address register is a part. -/
theorem index (value : Int) (writes : written .index) :
    ChangesOnly written registers { registers with i := value } board board := by
  -- Every other component is read from another field.
  refine ⟨rfl, rfl, rfl, ?_⟩
  intro component other
  cases component with
  | index => exact absurd writes other
  | _ => rfl

/-- The stack pointer is a part. -/
theorem pointer (value : Int) (writes : written .pointer) :
    ChangesOnly written registers { registers with sp := value } board board := by
  refine ⟨rfl, rfl, rfl, ?_⟩
  intro component other
  cases component with
  | pointer => exact absurd writes other
  | _ => rfl

/-- Each frame is a part. -/
theorem frame (place : Nat) (address : Int)
    (writes : ∀ saved : Nibble, saved.val = place → written (.frame saved)) :
    ChangesOnly written registers { registers with stack := registers.stack.set place address }
      board board := by
  -- The stack keeps its length, so the other places hold what they did.
  refine ⟨rfl, List.length_set, rfl, ?_⟩
  intro component other
  cases component with
  | frame saved =>
    have apart : place ≠ saved.val := fun same => other (writes saved same.symm)
    simp [Component.Kept, List.getD_eq_getElem?_getD, List.getElem?_set_ne apart]
  | _ => rfl

/-- The delay timer is a part. -/
theorem delay (value : Int) (writes : written .delay) :
    ChangesOnly written registers { registers with delayTimer := value } board board := by
  refine ⟨rfl, rfl, rfl, ?_⟩
  intro component other
  cases component with
  | delay => exact absurd writes other
  | _ => rfl

/-- The sound timer is a part. -/
theorem sound (value : Int) (writes : written .sound) :
    ChangesOnly written registers { registers with soundTimer := value } board board := by
  refine ⟨rfl, rfl, rfl, ?_⟩
  intro component other
  cases component with
  | sound => exact absurd writes other
  | _ => rfl

/-- Mode and key register are parts. -/
theorem wait (mode : Mode) (keyRegister : Option Int) (writes : written .mode)
    (names : written .keyRegister) :
    ChangesOnly written registers { registers with mode, keyRegister } board board := by
  -- Mode and register of a wait are written together.
  refine ⟨rfl, rfl, rfl, ?_⟩
  intro component other
  cases component with
  | mode => exact absurd writes other
  | keyRegister => exact absurd names other
  | _ => rfl

/-- The source of random bytes is a part. -/
theorem random (source : ByteSource) (writes : written .random) :
    ChangesOnly written registers registers board { board with random := source } := by
  refine ⟨rfl, rfl, rfl, ?_⟩
  intro component other
  cases component with
  | random => exact absurd writes other
  | _ => rfl

/-- The queue is a part, apart from the held keys. -/
theorem flush (writes : written .queue) :
    ChangesOnly written registers registers board
      { board with keypad := board.keypad.flush } := by
  refine ⟨rfl, rfl, rfl, ?_⟩
  intro component other
  cases component with
  | queue => exact absurd writes other
  | _ => rfl

/-- The display is a part, and so is its size. -/
theorem display (shown : Display) (size : shown.mode = board.display.mode)
    (writes : written .display) :
    ChangesOnly written registers registers board { board with display := shown } := by
  -- A display of the same size has no component but its pixels and its mark.
  refine ⟨rfl, rfl, rfl, ?_⟩
  intro component other
  cases component with
  | display => exact absurd writes other
  | displaySize => exact size
  | _ => rfl

/-- A block that is stored changes bytes from the address register on. -/
theorem stored {values : List Int}
    (writes : ∀ address : Nat, registers.i ≤ address ∧ address < registers.i + values.length →
      written (.byte address))
    (done : board.storeBlock registers values = (.ok result, left)) :
    ChangesOnly written registers result board left := by
  -- Memory took the block, so all of it is writable.
  rcases storing : board.memory.writeBlock registers.i values with ⟨fault | ⟨⟩, memory⟩
  · simp [Board.storeBlock, storing, Except.map] at done
  · simp only [Board.storeBlock, storing, Except.map, Prod.mk.injEq, Except.ok.injEq] at done
    obtain ⟨rfl, rfl⟩ := done
    refine .trans (.counter _) ⟨rfl, rfl, rfl, ?_⟩
    intro component other
    cases component with
    | byte address =>
      have outside : ¬(registers.i ≤ address ∧ address < registers.i + values.length) :=
        fun reached => other (writes address reached)
      exact Memory.byteAt_of_writeBlock _ _ storing outside
    | _ => rfl

/-! ### Loads -/

/-- A load changes its register. -/
theorem load (full : registers.Full) {x : Nibble} {value : Int} (writes : written (.general x))
    (done : registers.load x value = .ok result) :
    ChangesOnly written registers result board board := by
  -- The write is all that a load does, apart from moving on.
  rw [full.load_eq, Except.ok.injEq] at done
  subst done
  have named : ∀ other : Nibble, other.val = x.val → written (.general other) :=
    fun other same => (Fin.ext same : other = x) ▸ writes
  exact (ChangesOnly.register x.val (value % 256) named).trans (.counter _)

/-- A load with a flag changes its register and the flag register. -/
theorem loadWithFlag (full : registers.Full) {x : Nibble} {value : Int} {flag : Bool}
    (writes : written (.general x)) (flags : written (.general 15))
    (done : registers.loadWithFlag x value flag = .ok result) :
    ChangesOnly written registers result board board := by
  -- The flag is written behind the result, and may take its place.
  rw [full.loadWithFlag_eq, Except.ok.injEq] at done
  subst done
  have named : ∀ other : Nibble, other.val = x.val → written (.general other) :=
    fun other same => (Fin.ext same : other = x) ▸ writes
  have last : ∀ other : Nibble, other.val = 15 → written (.general other) :=
    fun other same => (Fin.ext same : other = 15) ▸ flags
  exact ((ChangesOnly.register x.val (value % 256) named).trans
    (.register 15 (flag.toInt % 256) last)).trans (.counter _)

/-- A block that is loaded changes as many registers as it has bytes, from the first on. -/
theorem loaded (full : registers.Full) {count : Nat} (few : count ≤ 16)
    (writes : ∀ x : Nibble, x.val < count → written (.general x))
    (done : board.loadBlock registers count = .ok result) :
    ChangesOnly written registers result board board := by
  -- The bytes were read, and they are written to registers with small numbers only.
  cases read : board.memory.readBlock registers.i count with
  | error fault => simp [Board.loadBlock, read] at done
  | ok bytes =>
    rw [Operation.loadBlock_eq full few read, Except.ok.injEq] at done
    subst done
    refine (ChangesOnly.writeAll _ ?_).trans (.counter _)
    -- A byte is written to the register of its place in the block.
    intro write member x same
    have place := Operation.numbered_writes bytes write member
    rw [Memory.readBlock_length read] at place
    apply writes
    omega

end ChangesOnly

variable {word : Word} {instruction : Instruction} {registers result : Registers}
  {board left : Board}

/-- An instruction changes only the parts that its word writes. -/
theorem Instruction.perform_changesOnly (full : registers.Full) (codes : word.Codes instruction)
    (done : instruction.perform registers board = (.ok result, left)) :
    ChangesOnly (word.Writes registers) registers result board left := by
  -- The digits that are listed for the instruction make its word a writer.
  cases instruction with
  -- Flow and skips
  | sys | jump =>
    simp only [perform, operation, fields, Operation.perform, Prod.mk.injEq,
      Except.ok.injEq] at done
    obtain ⟨rfl, rfl⟩ := done
    exact .counter _
  | jumpOffset | skipIfByte | skipUnlessByte | skipIfEqual | skipUnlessEqual | skipIfKey
  | skipUnlessKey =>
    simp only [perform, operation, fields, Operation.perform, full.peek_zero, full.value_eq,
      ok_bind, pure_eq_ok, Prod.mk.injEq, Except.ok.injEq] at done
    obtain ⟨rfl, rfl⟩ := done
    exact .counter _
  | ret =>
    simp only [perform, operation, Operation.perform, Prod.mk.injEq] at done
    obtain ⟨returned, rfl⟩ := done
    obtain ⟨⟨address, popped⟩, gave, moved⟩ := bind_eq_ok.mp returned
    obtain ⟨frame, -, same⟩ := bind_eq_ok.mp gave
    cases same
    cases moved
    exact .trans (.pointer _ (.inl codes)) (.counter _)
  | call target =>
    simp only [perform, operation, fields, Operation.perform, full.pushFrame_eq, ok_bind,
      pure_eq_ok, Prod.mk.injEq, Except.ok.injEq] at done
    obtain ⟨rfl, rfl⟩ := done
    obtain ⟨top, -⟩ := codes
    have saved : ∀ saved : Nibble, saved.val = ((registers.sp + 1) % 16).toNat →
        word.Writes registers (.frame saved) := fun saved same => ⟨top, by omega⟩
    exact .trans (.frame _ _ saved) (.trans (.pointer _ (.inr top)) (.counter _))
  -- Transfer and arithmetic
  | loadByte | readDelay =>
    obtain ⟨loaded, rfl⟩ := Prod.mk.inj done
    simp only [Word.Codes] at codes
    exact .load full (by simp [Word.Writes, fields, codes]) loaded
  | addByte | copy | bitOr | bitAnd | bitXor =>
    simp only [perform, operation, fields, Operation.perform, full.value_eq, full.combine_eq,
      ok_bind, Prod.mk.injEq] at done
    obtain ⟨loaded, rfl⟩ := done
    simp only [Word.Codes] at codes
    exact .load full (by simp [Word.Writes, codes]) loaded
  | add | sub | shiftRight | subFrom | shiftLeft =>
    simp only [perform, operation, fields, Operation.perform, full.value_eq, ok_bind,
      Prod.mk.injEq] at done
    obtain ⟨loaded, rfl⟩ := done
    simp only [Word.Codes] at codes
    exact .loadWithFlag full (by simp [Word.Writes, codes]) (by simp [Word.Writes, codes]) loaded
  | random x mask =>
    obtain ⟨loaded, rfl⟩ := Prod.mk.inj done
    simp only [Word.Codes] at codes
    exact .trans (.load full (by simp [Word.Writes, fields, codes]) loaded) (.random _ codes.1)
  -- Address register and memory
  | loadIndex =>
    simp only [perform, operation, fields, Operation.perform, Prod.mk.injEq,
      Except.ok.injEq] at done
    obtain ⟨rfl, rfl⟩ := done
    exact .trans (.index _ (.inl codes.1)) (.counter _)
  | addIndex | loadGlyph =>
    simp only [perform, operation, fields, Operation.perform, full.value_eq, ok_bind, pure_eq_ok,
      Prod.mk.injEq, Except.ok.injEq] at done
    obtain ⟨rfl, rfl⟩ := done
    simp only [Word.Codes] at codes
    exact .trans (.index _ (by simp [Word.Writes, codes])) (.counter _)
  | storeDecimal x =>
    simp only [perform, operation, fields, Operation.perform, full.value_eq] at done
    obtain ⟨top, -, low⟩ := codes
    refine .stored ?_ done
    -- Three digits are stored.
    intro address reached
    obtain ⟨first, last⟩ := reached
    simp only [decimalDigits, List.length_cons, List.length_nil] at last
    exact ⟨top, first, .inl ⟨low, by omega⟩⟩
  | storeRegisters x =>
    obtain ⟨top, rfl, low⟩ := codes
    refine .stored ?_ done
    -- As many registers are stored as there are up to the first.
    intro address reached
    obtain ⟨first, last⟩ := reached
    simp only [fields, List.length_take, full.general] at last
    exact ⟨top, first, .inr ⟨low, by omega⟩⟩
  | loadRegisters x =>
    obtain ⟨top, rfl, low⟩ := codes
    obtain ⟨loaded, rfl⟩ := Prod.mk.inj done
    refine .loaded full (by omega) ?_ loaded
    intro other upTo
    simp only [fields] at upTo
    exact .inr (.inr ⟨Fin.le_def.mpr (by omega), top, low⟩)
  -- Display, keys and timers
  | clear =>
    simp only [perform, operation, Operation.perform, Prod.mk.injEq, Except.ok.injEq] at done
    obtain ⟨rfl, rfl⟩ := done
    exact .trans (.counter _) (.display _ rfl (.inl codes))
  | draw x y rows =>
    simp only [perform, operation, fields, Operation.perform] at done
    split at done
    · obtain ⟨loaded, rfl⟩ := Prod.mk.inj done
      obtain ⟨top, -⟩ := codes
      exact .trans (.load full (by simp [Word.Writes, top]) loaded) (.display _ rfl (.inr top))
    · cases (Prod.mk.inj done).1
  | waitKey x =>
    simp only [perform, operation, fields, Operation.perform, Registers.awaitKey_eq, Prod.mk.injEq,
      Except.ok.injEq] at done
    obtain ⟨rfl, rfl⟩ := done
    obtain ⟨top, -, low⟩ := codes
    exact .trans (.wait _ _ ⟨top, low⟩ ⟨top, low⟩) (.flush ⟨top, low⟩)
  | setDelay =>
    simp only [perform, operation, fields, Operation.perform, full.value_eq, ok_bind, pure_eq_ok,
      Prod.mk.injEq, Except.ok.injEq] at done
    obtain ⟨rfl, rfl⟩ := done
    exact .trans (.delay _ ⟨codes.1, codes.2.2⟩) (.counter _)
  | setSound =>
    simp only [perform, operation, fields, Operation.perform, full.value_eq, ok_bind, pure_eq_ok,
      Prod.mk.injEq, Except.ok.injEq] at done
    obtain ⟨rfl, rfl⟩ := done
    exact .trans (.sound _ ⟨codes.1, codes.2.2⟩) (.counter _)

/--
A word that is executed takes one cycle and changes only what it writes.

It may find any values in sixteen registers and sixteen frames, and anything around them.
Random bytes are drawn one at a time.
-/
theorem words_write_only_theirs (full : registers.Full)
    (done : execute word registers board = (.ok result, left)) :
    result.cycleCount = registers.cycleCount + 1 ∧ result.Full ∧
      (∀ component, ¬word.Writes registers component →
        component.Kept registers result board left) ∧
      (word.opclass = 0xC → left.random = board.random.draw.2) := by
  -- The instruction of the word was performed, and its cycle counted.
  obtain ⟨instruction, moved, decoded, performed, rfl⟩ := execute_done done
  have changes := instruction.perform_changesOnly full (Word.codes_of_decode decoded) performed
  refine ⟨?_, ?_, ?_, ?_⟩
  · exact congrArg (· + 1) changes.cycles
  · exact ⟨changes.general.trans full.general, changes.frames.trans full.frames⟩
  · -- Counting the cycle touches no part.
    intro component other
    have kept := changes.others component other
    cases component <;> exact kept
  · -- The word is that of a random byte, which is drawn before it is masked.
    intro top
    have random : word.decode = some (.random word.x word.byte) :=
      Word.decode_of_codes ⟨top, rfl, rfl⟩
    rw [decoded, Option.some.injEq] at random
    subst random
    exact (congrArg Board.random (Prod.mk.inj performed).2).symm

/-- A register file that points to the second byte of a page. -/
def pointing : Registers :=
  { i := 0x301 }

/-- Storing two registers leaves the byte behind them alone, and the address register. -/
theorem words_write_only_theirs_storing :
    ∃ result left, execute 0xF155 pointing emptyBoard = (.ok result, left) ∧
      result.cycleCount = 1 ∧ result.i = 0x301 ∧
      left.memory.byteAt 0x303 = emptyBoard.memory.byteAt 0x303 := by
  -- Two registers are stored from 0x300 on, so the byte behind them is none of its own.
  refine ⟨_, _, rfl, ?_⟩
  obtain ⟨cycle, -, kept, -⟩ := words_write_only_theirs ⟨rfl, rfl⟩
    (rfl : execute 0xF155 pointing emptyBoard = (.ok _, _))
  exact ⟨cycle, kept .index (by decide), kept (.byte 0x303) (by decide)⟩

end Chip8
