import Chip8.Proofs.Instruction.Code
import Chip8.Proofs.Registers.Bounded

/-!
What instructions do to a full register file.

A refused instruction leaves the board as it was, and an executed one keeps the ranges.
-/

namespace Chip8

/-- The ways in which an executed instruction changes a register file. -/
inductive Registers.Change (registers : Registers) : Registers → Prop where
  /-- The counter moves on by one instruction or, over a skipped one, by two. -/
  | skip (condition : Bool) : Change registers (registers.skipIf condition)
  /-- General registers are written, and the counter moves on. -/
  | write (writes : List (Int × Int)) :
      Change registers { registers with v := writeAll registers.v writes }.advance
  /-- The counter jumps at most as far as an indexed jump. -/
  | jump {address : Int} (low : 0 ≤ address) (high : address ≤ 0x10FE) :
      Change registers (registers.jump address)
  /-- The counter is saved in the ring and jumps. -/
  | call (target : Address) :
      Change registers ({ registers with
        sp := (registers.sp + 1) % 16
        stack := registers.stack.set ((registers.sp + 1) % 16).toNat (registers.pc % 65536)
        }.jump target.val)
  /-- The counter goes on behind the call that was saved last. -/
  | ret :
      Change registers ({ registers with sp := (registers.sp - 1) % 16 }.jump
        (registers.stack.getD registers.sp.toNat 0)).advance
  /-- The address register takes twelve bits, and the counter moves on. -/
  | index {value : Int} (low : 0 ≤ value) (high : value ≤ 0xFFF) :
      Change registers (registers.setIndex value).advance
  /-- The delay timer is set, and the counter moves on. -/
  | delay (value : Int) : Change registers (registers.setDelay value).advance
  /-- The sound timer is set, and the counter moves on. -/
  | sound (value : Int) : Change registers (registers.setSound value).advance
  /-- A wait for a key begins, and the counter stays. -/
  | wait (x : Nibble) :
      Change registers { registers with mode := .awaitingKey, keyRegister := some x.val }

namespace Registers.Change

variable {entry : Int} {registers result : Registers}

/-- A change at an address that was fetched keeps the ranges. -/
theorem bounded (change : registers.Change result) (before : registers.Bounded entry)
    (fetched : Fetchable registers.pc) : result.Bounded entry := by
  cases change with
  | skip condition => exact before.skipIf fetched condition
  | write writes => exact (before.writeAll writes).advance fetched
  | jump low high => exact before.jump low high
  | call target => exact (before.push fetched).jump (by omega) (by omega)
  | ret =>
    -- The frame is the address of a call that was fetched.
    obtain ⟨low, high⟩ := before.top_fetchable
    refine (before.pop.jump low (by omega)).advance ⟨Int.emod_nonneg _ (by decide), ?_⟩
    simp only [Registers.jump]
    omega
  | index low high => exact (before.setIndex low high).advance fetched
  | delay value => exact (before.setDelay value).advance fetched
  | sound value => exact (before.setSound value).advance fetched
  | wait x => exact { before with }

/-- A change keeps the mode, or begins a wait at the same address. -/
theorem mode (change : registers.Change result) :
    (result.mode = registers.mode ∧ result.keyRegister = registers.keyRegister) ∨
      (result.mode = .awaitingKey ∧ (∃ x : Nibble, result.keyRegister = some x.val) ∧
        result.pc = registers.pc) := by
  -- Only the wait touches the mode, and it leaves the counter where it is.
  cases change with
  | wait x => exact .inr ⟨rfl, ⟨x, rfl⟩, rfl⟩
  | _ => exact .inl ⟨rfl, rfl⟩

end Registers.Change

namespace Operation

variable {entry : Int} {registers result : Registers} {board left : Board} {fault : Fault}
  {fields : Word.Fields}

/-! ### Refused operations -/

/-- A block that is not stored leaves the board alone. -/
theorem storeBlock_refused {values : List Int}
    (refused : board.storeBlock registers values = (.error fault, left)) :
    left = board ∧ ∃ location, fault = .outOfBounds .write location := by
  -- A refused block leaves the memory, which is all of the board that could have changed.
  unfold Board.storeBlock at refused
  rcases written : board.memory.writeBlock registers.i values with ⟨cause | ⟨⟩, memory⟩
  · simp only [written, Except.map, Prod.mk.injEq, Except.error.injEq] at refused
    obtain ⟨rfl, rfl⟩ := refused
    obtain ⟨rfl, outside⟩ := Memory.writeBlock_error written
    exact ⟨rfl, outside⟩
  · simp [written, Except.map] at refused

/-- Bytes that are loaded as numbered writes have numbers below their count. -/
theorem numbered_writes (bytes : List Byte) :
    ∀ write ∈ bytes.zipIdx.map fun ((byte, place) : Byte × Nat) =>
        ((place : Int), (byte.val : Int)),
      0 ≤ write.1 ∧ write.1 < (bytes.length : Int) := by
  -- A number is a position in the list.
  intro write member
  simp only [List.mem_map, Prod.exists] at member
  obtain ⟨byte, place, listed, rfl⟩ := member
  have inside := List.snd_lt_of_mem_zipIdx listed
  constructor
  · exact Int.natCast_nonneg place
  · simp only
    omega

/-- Up to sixteen bytes are loaded into sixteen registers, if the block can be read at all. -/
theorem loadBlock_of_general (general : registers.v.length = 16) {count : Nat} (few : count ≤ 16)
    {bytes : List Byte} (read : board.memory.readBlock registers.i count = .ok bytes) :
    board.loadBlock registers count = .ok { registers with
      v := Registers.writeAll registers.v
        (bytes.zipIdx.map fun ((byte, place) : Byte × Nat) =>
          ((place : Int), (byte.val : Int))) }.advance := by
  -- As many bytes are read as were asked for, so every write names a register.
  have size := Memory.readBlock_length read
  have named : ∀ write ∈ bytes.zipIdx.map fun ((byte, place) : Byte × Nat) =>
      ((place : Int), (byte.val : Int)), 0 ≤ write.1 ∧ write.1 < 16 := by
    intro write member
    have place := numbered_writes bytes write member
    omega
  have written := Registers.setAll_of_general general named
  simp [Board.loadBlock, read, written]

/-- Up to sixteen bytes are loaded into a full file, if the block can be read at all. -/
theorem loadBlock_eq (full : registers.Full) {count : Nat} (few : count ≤ 16) {bytes : List Byte}
    (read : board.memory.readBlock registers.i count = .ok bytes) :
    board.loadBlock registers count = .ok { registers with
      v := Registers.writeAll registers.v
        (bytes.zipIdx.map fun ((byte, place) : Byte × Nat) =>
          ((place : Int), (byte.val : Int))) }.advance :=
  loadBlock_of_general full.general few read

/-- Loading up to sixteen bytes is refused only by memory. -/
theorem loadBlock_refused (full : registers.Full) {count : Nat} (few : count ≤ 16)
    (refused : board.loadBlock registers count = .error fault) :
    ∃ location, fault = .outOfBounds .read location := by
  -- Once the bytes are there, the writes of a full file cannot fail.
  cases read : board.memory.readBlock registers.i count with
  | ok bytes => simp [loadBlock_eq full few read] at refused
  | error cause =>
    simp only [Board.loadBlock, read, error_bind, Except.error.injEq] at refused
    exact refused ▸ Memory.readBlock_error read

/-- A sprite is refused only by memory. -/
theorem spriteAt_refused (full : registers.Full) {x y rows : Nibble}
    (refused : board.spriteAt registers x y rows = .error fault) :
    ∃ location, fault = .outOfBounds .read location := by
  -- Both coordinates are in the file, so the rows are all that can be missing.
  cases read : board.memory.readBlock registers.i rows.val with
  | ok bytes => simp [Board.spriteAt, read, full.value_eq] at refused
  | error cause =>
    simp only [Board.spriteAt, read, error_bind, Except.error.injEq] at refused
    exact refused ▸ Memory.readBlock_error read

/-- An operation that is refused on a full file leaves the board as it was. -/
theorem perform_refused_board (full : registers.Full) (operation : Operation)
    (refused : operation.perform fields registers board = (.error fault, left)) :
    left = board := by
  -- Most operations hand the board back, and the others check before they change it.
  cases operation with
  | clear => simp [perform] at refused
  | random => simp [perform, full.load_eq] at refused
  | storeDecimal =>
    simp only [perform, full.value_eq] at refused
    exact (storeBlock_refused refused).1
  | storeRegisters => exact (storeBlock_refused refused).1
  | draw =>
    simp only [perform] at refused
    cases placed : board.spriteAt registers fields.x fields.y fields.nibble with
    | ok sprite => simp [placed, full.load_eq] at refused
    | error cause =>
      simp only [placed, Prod.mk.injEq] at refused
      exact refused.2.symm
  | waitKey => simp [perform, Registers.awaitKey_eq] at refused
  | _ => exact (Prod.mk.inj refused).2.symm

/-- On a full file only memory refuses an operation, if a return finds its frame in the ring. -/
theorem perform_refused_fault (full : registers.Full) (operation : Operation)
    (inRing : operation = .ret → 0 ≤ registers.sp ∧ registers.sp ≤ 15)
    (refused : operation.perform fields registers board = (.error fault, left)) :
    ∃ access location, fault = .outOfBounds access location := by
  -- Register operations answer on a full file, so only the four block accesses remain.
  cases operation with
  | storeDecimal =>
    simp only [perform, full.value_eq] at refused
    exact ⟨_, (storeBlock_refused refused).2⟩
  | storeRegisters => exact ⟨_, (storeBlock_refused refused).2⟩
  | loadRegisters => exact ⟨_, loadBlock_refused full (by omega) (Prod.mk.inj refused).1⟩
  | draw =>
    simp only [perform] at refused
    cases placed : board.spriteAt registers fields.x fields.y fields.nibble with
    | ok sprite => simp [placed, full.load_eq] at refused
    | error cause =>
      simp only [placed, Prod.mk.injEq, Except.error.injEq] at refused
      exact ⟨_, refused.1 ▸ spriteAt_refused full placed⟩
  | ret =>
    obtain ⟨low, high⟩ := inRing rfl
    simp [perform, full.popFrame_eq low high] at refused
  | call => simp [perform, full.pushFrame_eq] at refused
  | jumpOffset => simp [perform, full.peek_zero] at refused
  | _ =>
    simp [perform, full.value_eq, full.load_eq, full.loadWithFlag_eq, full.combine_eq,
      Registers.awaitKey_eq] at refused

/-! ### Executed operations -/

/-- A stored block moves on to the next instruction. -/
theorem storeBlock_done {values : List Int}
    (done : board.storeBlock registers values = (.ok result, left)) :
    result = registers.advance := by
  -- Only a block that memory has taken is answered with registers.
  obtain ⟨-, -, moved⟩ := map_eq_ok.mp (Prod.mk.inj done).1
  exact moved.symm

/-- A loaded block writes to registers and moves on to the next instruction. -/
theorem loadBlock_done (full : registers.Full) {count : Nat} (few : count ≤ 16)
    (done : board.loadBlock registers count = .ok result) : registers.Change result := by
  -- The bytes must have been read, and they become the writes of the change.
  cases read : board.memory.readBlock registers.i count with
  | error fault => simp [Board.loadBlock, read] at done
  | ok bytes =>
    rw [loadBlock_eq full few read, Except.ok.injEq] at done
    exact done ▸ .write _

/-- A loaded register is one write. -/
theorem load_done (full : registers.Full) {x : Nibble} {value : Int}
    (done : registers.load x value = .ok result) : registers.Change result := by
  -- The load cannot fail.
  rw [full.load_eq, Except.ok.injEq] at done
  exact done ▸ .write [(x.val, value)]

/-- A result and its flag are two writes. -/
theorem loadWithFlag_done (full : registers.Full) {x : Nibble} {value : Int} {flag : Bool}
    (done : registers.loadWithFlag x value flag = .ok result) : registers.Change result := by
  -- The flag is written behind the result, and wins where both name one register.
  rw [full.loadWithFlag_eq, Except.ok.injEq] at done
  exact done ▸ .write [(x.val, value), (15, flag.toInt)]

/-- Every executed operation changes the register file in one of the ways that are listed. -/
theorem perform_change (full : registers.Full)
    (offset : 0 ≤ registers.reg 0 ∧ registers.reg 0 ≤ 0xFF) (operation : Operation)
    (inRing : operation = .ret → 0 ≤ registers.sp ∧ registers.sp ≤ 15)
    (done : operation.perform fields registers board = (.ok result, left)) :
    registers.Change result := by
  -- On a full file every register operation answers, and its answer names the change.
  cases operation with
  -- Flow
  | clear | sys =>
    simp only [perform, Prod.mk.injEq, Except.ok.injEq] at done
    exact done.1 ▸ .skip false
  | ret =>
    obtain ⟨first, last⟩ := inRing rfl
    simp only [perform, full.popFrame_eq first last, ok_bind, pure_eq_ok, Prod.mk.injEq,
      Except.ok.injEq] at done
    exact done.1 ▸ .ret
  | jump =>
    simp only [perform, Prod.mk.injEq, Except.ok.injEq] at done
    exact done.1 ▸ .jump (by omega) (by omega)
  | call =>
    simp only [perform, full.pushFrame_eq, ok_bind, pure_eq_ok, Prod.mk.injEq,
      Except.ok.injEq] at done
    exact done.1 ▸ .call fields.address
  | jumpOffset =>
    -- The farthest target is the last address plus the greatest byte.
    simp only [perform, full.peek_zero, ok_bind, pure_eq_ok, Prod.mk.injEq, Except.ok.injEq] at done
    exact done.1 ▸ .jump (by omega) (by omega)
  -- Skips
  | skipIfByte | skipUnlessByte | skipIfEqual | skipUnlessEqual | skipIfKey | skipUnlessKey =>
    simp only [perform, full.value_eq, ok_bind, pure_eq_ok, Prod.mk.injEq, Except.ok.injEq] at done
    exact done.1 ▸ .skip _
  -- Transfer and arithmetic
  | loadByte | readDelay | random => exact load_done full (Prod.mk.inj done).1
  | addByte | copy | bitOr | bitAnd | bitXor =>
    simp only [perform, full.value_eq, full.combine_eq, ok_bind, Prod.mk.injEq] at done
    exact load_done full done.1
  | add | sub | shiftRight | subFrom | shiftLeft =>
    simp only [perform, full.value_eq, ok_bind, Prod.mk.injEq] at done
    exact loadWithFlag_done full done.1
  -- Address register and memory
  | loadIndex =>
    simp only [perform, Prod.mk.injEq, Except.ok.injEq] at done
    exact done.1 ▸ .index (by omega) (by omega)
  | addIndex =>
    simp only [perform, full.value_eq, ok_bind, pure_eq_ok, Prod.mk.injEq, Except.ok.injEq] at done
    exact done.1 ▸ .index (by omega) (by omega)
  | loadGlyph =>
    simp only [perform, full.value_eq, ok_bind, pure_eq_ok, Prod.mk.injEq, Except.ok.injEq,
      glyphAddress] at done
    exact done.1 ▸ .index (by omega) (by omega)
  | storeDecimal =>
    simp only [perform, full.value_eq] at done
    exact storeBlock_done done ▸ .skip false
  | storeRegisters => exact storeBlock_done done ▸ .skip false
  | loadRegisters => exact loadBlock_done full (by omega) (Prod.mk.inj done).1
  -- Display, keys and timers
  | draw =>
    simp only [perform] at done
    split at done
    · exact load_done full (Prod.mk.inj done).1
    · cases (Prod.mk.inj done).1
  | waitKey =>
    simp only [perform, Registers.awaitKey_eq, Prod.mk.injEq, Except.ok.injEq] at done
    exact done.1 ▸ .wait fields.x
  | setDelay =>
    simp only [perform, full.value_eq, ok_bind, pure_eq_ok, Prod.mk.injEq, Except.ok.injEq] at done
    exact done.1 ▸ .delay _
  | setSound =>
    simp only [perform, full.value_eq, ok_bind, pure_eq_ok, Prod.mk.injEq, Except.ok.injEq] at done
    exact done.1 ▸ .sound _

/-- An operation keeps the size of the display, and the keypad but for a queue that it empties. -/
theorem perform_board (operation : Operation) (fields : Word.Fields) (registers : Registers)
    (board : Board) :
    (operation.perform fields registers board).2.display.mode = board.display.mode ∧
      ((operation.perform fields registers board).2.keypad = board.keypad ∨
        (operation.perform fields registers board).2.keypad = board.keypad.flush) := by
  -- A wait empties the queue, a sprite is drawn in the mode at hand, and stores touch memory only.
  cases operation with
  | waitKey => exact ⟨rfl, .inr rfl⟩
  | storeDecimal | draw =>
    simp only [perform]
    split <;> exact ⟨rfl, .inl rfl⟩
  | _ => exact ⟨rfl, .inl rfl⟩

end Operation

/-! ### Words -/

variable {entry : Int} {registers result : Registers} {board left : Board} {fault : Fault}
  {word : Word}

/-- An executed word is an executed instruction that took one cycle. -/
theorem execute_done (done : execute word registers board = (.ok result, left)) :
    ∃ (instruction : Instruction) (moved : Registers), word.decode = some instruction ∧
      instruction.perform registers board = (.ok moved, left) ∧ result = moved.countCycle := by
  -- A word without an instruction is refused, so this one was decoded and performed.
  cases decoded : word.decode with
  | none =>
    rw [Word.execute_of_invalid decoded] at done
    cases (Prod.mk.inj done).1
  | some instruction =>
    rw [Word.execute_of_decode decoded] at done
    obtain ⟨counted, same⟩ := Prod.mk.inj done
    obtain ⟨moved, performed, rfl⟩ := map_eq_ok.mp counted
    exact ⟨instruction, moved, rfl, Prod.ext performed same, rfl⟩

/-- A word is executed as its instruction is performed, and takes a cycle. -/
theorem execute_performed {instruction : Instruction} (decoded : word.decode = some instruction)
    (performed : instruction.perform registers board = (.ok result, left)) :
    execute word registers board = (.ok result.countCycle, left) := by
  -- Counting the cycle is all that is added.
  rw [Word.execute_of_decode decoded, performed]
  rfl

/-- A word fails with the fault by which its instruction is refused. -/
theorem execute_failed {instruction : Instruction} (decoded : word.decode = some instruction)
    (failed : instruction.perform registers board = (.error fault, left)) :
    execute word registers board = (.error fault, left) := by
  -- There is no result of which the cycle could be counted.
  rw [Word.execute_of_decode decoded, failed]
  rfl

/-- A refused word has no instruction, or its instruction was refused. -/
theorem execute_refused (refused : execute word registers board = (.error fault, left)) :
    (fault = .unknownOpcode word (some registers.pc) ∧ left = board) ∨
      ∃ instruction : Instruction, word.decode = some instruction ∧
        instruction.perform registers board = (.error fault, left) := by
  -- Counting the cycle cannot fail: decoding refused the word, or performing did.
  cases decoded : word.decode with
  | none =>
    rw [Word.execute_of_invalid decoded] at refused
    obtain ⟨unknown, same⟩ := Prod.mk.inj refused
    exact .inl ⟨(Except.error.inj unknown).symm, same.symm⟩
  | some instruction =>
    rw [Word.execute_of_decode decoded] at refused
    obtain ⟨counted, same⟩ := Prod.mk.inj refused
    exact .inr ⟨instruction, rfl, Prod.ext (map_eq_error.mp counted) same⟩

/-- A word that is refused on a full file leaves the board as it was. -/
theorem execute_refused_board (full : registers.Full)
    (refused : execute word registers board = (.error fault, left)) : left = board := by
  -- Without an instruction nothing was attempted.
  rcases execute_refused refused with ⟨-, same⟩ | ⟨instruction, -, refused⟩
  · exact same
  · exact Operation.perform_refused_board full _ refused

/-- On a bounded file a word is refused by memory, or because it has no instruction. -/
theorem execute_refused_fault (bounded : registers.Bounded entry)
    (refused : execute word registers board = (.error fault, left)) :
    (∃ access location, fault = .outOfBounds access location) ∨
      fault = .unknownOpcode word (some registers.pc) := by
  -- The file is full and its pointer lies in the ring, which leaves memory to refuse.
  rcases execute_refused refused with ⟨unknown, -⟩ | ⟨instruction, -, refused⟩
  · exact .inr unknown
  · exact .inl (Operation.perform_refused_fault bounded.toFull _ (fun _ => bounded.pointer) refused)

/-- A word that was fetched keeps the ranges of the register file. -/
theorem execute_bounded (bounded : registers.Bounded entry) (fetched : Fetchable registers.pc)
    (done : execute word registers board = (.ok result, left)) : result.Bounded entry := by
  -- The change keeps the ranges, and so does counting its cycle.
  obtain ⟨instruction, moved, -, performed, rfl⟩ := execute_done done
  have change := Operation.perform_change bounded.toFull (bounded.reg_range 0) _
    (fun _ => bounded.pointer) performed
  exact (change.bounded bounded fetched).countCycle

/-- An executed word keeps the mode, or begins a wait at the same address. -/
theorem execute_mode (bounded : registers.Bounded entry)
    (done : execute word registers board = (.ok result, left)) :
    (result.mode = registers.mode ∧ result.keyRegister = registers.keyRegister) ∨
      (result.mode = .awaitingKey ∧ (∃ x : Nibble, result.keyRegister = some x.val) ∧
        result.pc = registers.pc) := by
  -- Counting the cycle changes neither mode nor counter.
  obtain ⟨instruction, moved, -, performed, rfl⟩ := execute_done done
  exact (Operation.perform_change bounded.toFull (bounded.reg_range 0) _
    (fun _ => bounded.pointer) performed).mode

/-- A word keeps the size of the display, and all of the keypad but a queue that it empties. -/
theorem execute_board (word : Word) (registers : Registers) (board : Board) :
    (execute word registers board).2.display.mode = board.display.mode ∧
      ((execute word registers board).2.keypad = board.keypad ∨
        (execute word registers board).2.keypad = board.keypad.flush) := by
  -- Nothing follows the operation that could touch the board.
  unfold execute
  cases word.operation? with
  | none => exact ⟨rfl, .inl rfl⟩
  | some operation => exact operation.perform_board word.fields registers board

end Chip8
