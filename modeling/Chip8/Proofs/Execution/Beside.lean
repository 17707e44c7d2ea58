import Chip8.Proofs.Execution

/-!
What an instruction does not look at.

Apart from the wait for a key and the instructions about timers, an instruction computes with the
general registers, the address register, the counter and the frames only.
No instruction looks at the queue of presses.
-/

namespace Chip8

namespace Registers

/-- What one register file computes with, beside the timers, mode and cycles of another. -/
def beside (registers other : Registers) : Registers :=
  { other with
    v := registers.v, i := registers.i, pc := registers.pc
    sp := registers.sp, stack := registers.stack }

/-- A register holds what it holds. -/
@[simp]
theorem value_beside (registers other : Registers) (x : Nibble) :
    (registers.beside other).value x = registers.value x :=
  rfl

/-- A register is set as it would be beside its own timers. -/
@[simp]
theorem set_beside (registers other : Registers) (index value : Int) :
    (registers.beside other).set index value =
      (registers.set index value).map (·.beside other) :=
  set_comm (·.beside other) (fun _ => rfl) (fun _ _ => rfl) registers index value

/-- Several registers are set as they would be beside their own timers. -/
@[simp]
theorem setAll_beside (registers other : Registers) (writes : List (Int × Int)) :
    (registers.beside other).setAll writes = (registers.setAll writes).map (·.beside other) :=
  setAll_comm (·.beside other) (fun _ => rfl) (fun _ _ => rfl) registers writes

/-- A register is loaded as it would be beside its own timers. -/
@[simp]
theorem load_beside (registers other : Registers) (x : Nibble) (value : Int) :
    (registers.beside other).load x value = (registers.load x value).map (·.beside other) := by
  -- The write hands its file on to the counter.
  rw [load, load, set_beside]
  cases registers.set x.val value <;> rfl

/-- Loading a register keeps timers, mode and cycles. -/
theorem load_keeps {registers result : Registers} {x : Nibble} {value : Int}
    (done : registers.load x value = .ok result) : result = result.beside registers := by
  -- A register file is itself beside its own timers.
  have same := load_beside registers registers x value
  rw [show registers.beside registers = registers from rfl, done] at same
  exact Except.ok.inj same

/-- A result and its flag are loaded as they would be beside their own timers. -/
@[simp]
theorem loadWithFlag_beside (registers other : Registers) (x : Nibble) (value : Int) (flag : Bool) :
    (registers.beside other).loadWithFlag x value flag =
      (registers.loadWithFlag x value flag).map (·.beside other) := by
  -- Both writes hand their file on to the counter.
  rw [loadWithFlag, loadWithFlag, setAll_beside]
  cases registers.setAll _ <;> rfl

/-- Two registers are combined as they would be beside their own timers. -/
@[simp]
theorem combine_beside (registers other : Registers) (operator : Nat → Nat → Nat) (x y : Nibble) :
    (registers.beside other).combine operator x y =
      (registers.combine operator x y).map (·.beside other) := by
  simp only [combine, value_beside, load_beside]
  cases registers.value x <;> cases registers.value y <;> rfl

/-- A frame is saved as it would be beside its own timers. -/
theorem pushFrame_beside (registers other : Registers) (address : Int) :
    (registers.beside other).pushFrame address =
      (registers.pushFrame address).map (·.beside other) := by
  -- The stack and its pointer are not among what is put beside.
  have same : (registers.beside other).stack = registers.stack ∧
    (registers.beside other).sp = registers.sp := ⟨rfl, rfl⟩
  simp only [pushFrame, same]
  split <;> rfl

/-- A frame is given up as it would be beside its own timers. -/
theorem popFrame_beside (registers other : Registers) :
    (registers.beside other).popFrame =
      registers.popFrame.map fun (address, left) => (address, left.beside other) := by
  have same : (registers.beside other).frameAt (registers.beside other).sp =
    registers.frameAt registers.sp := rfl
  simp only [popFrame, same]
  cases registers.frameAt registers.sp <;> rfl

end Registers

namespace Board

/-- A block is stored as it would be beside its own timers. -/
@[simp]
theorem storeBlock_beside (board : Board) (registers other : Registers) (values : List Int) :
    board.storeBlock (registers.beside other) values =
      ((board.storeBlock registers values).1.map (·.beside other),
        (board.storeBlock registers values).2) := by
  -- Memory takes the block or not, for all that the timers say.
  have same : (registers.beside other).i = registers.i := rfl
  simp only [storeBlock, same]
  rcases board.memory.writeBlock registers.i values with ⟨- | -, memory⟩ <;> rfl

/-- A block is loaded as it would be beside its own timers. -/
@[simp]
theorem loadBlock_beside (board : Board) (registers other : Registers) (count : Nat) :
    board.loadBlock (registers.beside other) count =
      (board.loadBlock registers count).map (·.beside other) := by
  -- The bytes that are read become writes, which do not touch the timers.
  have same : (registers.beside other).i = registers.i := rfl
  simp only [loadBlock, same, Registers.setAll_beside]
  cases board.memory.readBlock registers.i count with
  | error fault => rfl
  | ok bytes =>
    simp only [ok_bind]
    cases registers.setAll _ <;> rfl

/-- The board with another queue of presses. -/
def withQueue (board : Board) (queue : List Key) : Board :=
  { board with keypad := { board.keypad with queue } }

/-- A block is stored whatever is queued. -/
@[simp]
theorem storeBlock_withQueue (board : Board) (queue : List Key) (registers : Registers)
    (values : List Int) :
    (board.withQueue queue).storeBlock registers values =
      ((board.storeBlock registers values).1,
        (board.storeBlock registers values).2.withQueue queue) := by
  -- Memory takes the block or not, for all that the keypad says.
  have same : (board.withQueue queue).memory = board.memory := rfl
  simp only [storeBlock, same]
  cases board.memory.writeBlock registers.i values
  rfl

end Board

namespace Operation

/-- The operations that have nothing to do with timers and do not begin a wait. -/
def calculates : Operation → Bool
  | .waitKey | .readDelay | .setDelay | .setSound => false
  | _ => true

/-- An operation that calculates does so beside any timers, mode and cycles. -/
theorem perform_beside (operation : Operation) (calculates : operation.calculates = true)
    (fields : Word.Fields) (registers other : Registers) (board : Board) :
    operation.perform fields (registers.beside other) board =
      ((operation.perform fields registers board).1.map (·.beside other),
        (operation.perform fields registers board).2) := by
  -- Registers are read alike and written alike, and the board is not asked about the rest.
  cases operation with
  | waitKey | readDelay | setDelay | setSound => cases calculates
  -- Flow
  | clear | sys | jump | loadIndex => rfl
  | ret =>
    simp only [perform, Registers.popFrame_beside]
    cases registers.popFrame <;> rfl
  | call =>
    have same : (registers.beside other).pc = registers.pc := rfl
    simp only [perform, same, Registers.pushFrame_beside]
    cases registers.pushFrame registers.pc <;> rfl
  | jumpOffset =>
    have same : (registers.beside other).peek 0 = registers.peek 0 := rfl
    simp only [perform, same]
    cases registers.peek 0 <;> rfl
  -- Skips, transfer and arithmetic
  | skipIfByte | skipUnlessByte | skipIfKey | skipUnlessKey | addIndex | loadGlyph =>
    simp only [perform, Registers.value_beside]
    cases registers.value fields.x <;> rfl
  | skipIfEqual | skipUnlessEqual =>
    simp only [perform, Registers.value_beside]
    cases registers.value fields.x <;> cases registers.value fields.y <;> rfl
  | loadByte | bitOr | bitAnd | bitXor | random =>
    simp only [perform, Registers.load_beside,
      Registers.combine_beside]
  | addByte | shiftRight | shiftLeft =>
    simp only [perform, Registers.value_beside,
      Registers.load_beside, Registers.loadWithFlag_beside]
    cases registers.value fields.x <;> rfl
  | copy =>
    simp only [perform, Registers.value_beside,
      Registers.load_beside]
    cases registers.value fields.y <;> rfl
  | add | sub | subFrom =>
    simp only [perform, Registers.value_beside,
      Registers.loadWithFlag_beside]
    cases registers.value fields.x <;> cases registers.value fields.y <;> rfl
  -- Memory and display
  | storeDecimal =>
    simp only [perform, Registers.value_beside]
    cases registers.value fields.x with
    | error fault => rfl
    | ok value => exact board.storeBlock_beside registers other _
  | storeRegisters => exact board.storeBlock_beside registers other _
  | loadRegisters =>
    simp only [perform, Board.loadBlock_beside]
  | draw =>
    have same : board.spriteAt (registers.beside other) fields.x fields.y fields.nibble =
      board.spriteAt registers fields.x fields.y fields.nibble := rfl
    simp only [perform, same]
    cases board.spriteAt registers fields.x fields.y fields.nibble with
    | error fault => rfl
    | ok placed => simp only [Registers.load_beside]

variable {fields : Word.Fields} {registers result : Registers} {board left : Board}

/-- An operation that calculates keeps timers, mode and cycles. -/
theorem perform_keeps {operation : Operation} (calculates : operation.calculates = true)
    (done : operation.perform fields registers board = (.ok result, left)) :
    result = result.beside registers := by
  -- A register file is itself beside its own timers.
  have same := operation.perform_beside calculates fields registers registers board
  rw [show registers.beside registers = registers from rfl, done] at same
  exact Except.ok.inj (Prod.mk.inj same).1

/-- An operation does the same whatever is queued, and what is queued stays or is flushed. -/
theorem perform_withQueue (operation : Operation) (fields : Word.Fields) (registers : Registers)
    (board : Board) (queue : List Key) :
    operation.perform fields registers (board.withQueue queue) =
      ((operation.perform fields registers board).1,
        (operation.perform fields registers board).2.withQueue
          (if operation = .waitKey then [] else queue)) := by
  -- Held keys are looked at, and so are memory, display and random bytes.
  cases operation with
  | storeDecimal =>
    simp only [perform]
    cases registers.value fields.x with
    | error fault => rfl
    | ok value => exact board.storeBlock_withQueue queue registers _
  | storeRegisters => exact board.storeBlock_withQueue queue registers _
  | draw =>
    have same : (board.withQueue queue).spriteAt registers fields.x fields.y fields.nibble =
      board.spriteAt registers fields.x fields.y fields.nibble := rfl
    simp only [perform, same]
    cases board.spriteAt registers fields.x fields.y fields.nibble <;> rfl
  | _ => rfl

/-- Only the wait for a key changes the mode. -/
theorem perform_mode {operation : Operation} (other : operation ≠ .waitKey)
    (done : operation.perform fields registers board = (.ok result, left)) :
    result.mode = registers.mode := by
  -- What does not calculate sets a timer or copies one.
  cases operation with
  | waitKey => exact absurd rfl other
  | readDelay =>
    exact Registers.load_keeps (Prod.mk.inj done).1 ▸ rfl
  | setDelay | setSound =>
    obtain ⟨value, -, moved⟩ := bind_eq_ok.mp (Prod.mk.inj done).1
    exact Except.ok.inj moved ▸ rfl
  | _ => exact perform_keeps rfl done ▸ rfl

end Operation

/-- A word does the same whatever is queued, and what is queued stays or is flushed. -/
theorem execute_withQueue (word : Word) (registers : Registers) (board : Board)
    (queue : List Key) :
    execute word registers (board.withQueue queue) =
      ((execute word registers board).1, (execute word registers board).2.withQueue
        (if word.operation? = some .waitKey then [] else queue)) := by
  -- A word without an instruction leaves the board as it was.
  unfold execute
  cases word.operation? with
  | none => rfl
  | some operation => simp [operation.perform_withQueue word.fields registers board queue]

/-- What is queued behind a word is what was queued before it, unless the word waits for a key. -/
theorem execute_queue (word : Word) (registers : Registers) (board : Board) :
    (execute word registers board).2.keypad.queue =
      if word.operation? = some .waitKey then [] else board.keypad.queue :=
  -- A board is itself with its own queue.
  congrArg (fun outcome : Outcome => outcome.2.keypad.queue)
    (execute_withQueue word registers board board.keypad.queue)

/-- A running register file begins a wait only by the instruction that waits for a key. -/
theorem execute_waits {word : Word} {registers result : Registers} {board left : Board}
    (running : registers.mode = .running)
    (done : execute word registers board = (.ok result, left))
    (waiting : result.mode = .awaitingKey) : word.operation? = some .waitKey := by
  -- Counting the cycle keeps the mode, and so does every other instruction.
  obtain ⟨instruction, moved, decoded, performed, rfl⟩ := execute_done done
  rw [Word.operation?, decoded, Option.map_some, Option.some.injEq]
  refine Decidable.byContradiction fun other => ?_
  have same : moved.mode = .awaitingKey := waiting
  rw [Operation.perform_mode other performed, running] at same
  cases same

end Chip8
