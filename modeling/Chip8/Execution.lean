import Chip8.Display
import Chip8.Instruction.Basic
import Chip8.Keypad
import Chip8.Memory
import Chip8.Random.ByteSource
import Chip8.Registers

/-!
The effect of each instruction on a register file and on the board around it.

An instruction answers with a new register file or with a fault, and in both cases with the board.
A fault of the guest program leaves the board as it was.
-/

namespace Chip8

/-- What surrounds the register file: memory, display, keypad and random bytes. -/
structure Board where
  memory : Memory
  display : Display
  keypad : Keypad
  random : ByteSource

/-- A new register file, or the reason why there is none, and the board that is left. -/
abbrev Outcome := Except Fault Registers × Board

namespace Registers

/-- The value of a register that an instruction names. -/
def value (registers : Registers) (x : Nibble) : Except Fault Int :=
  registers.peek x.val

/-- Moves on by two instructions if a condition holds, and else by one. -/
def skipIf (registers : Registers) (condition : Bool) : Registers :=
  registers.advanceBy (if condition then 2 else 1)

/-- Stores a value in a register and moves on. -/
def load (registers : Registers) (x : Nibble) (value : Int) : Except Fault Registers := do
  return (← registers.set x.val value).advance

/-- Stores a result and then the flag, which therefore wins in the flag register, and moves on. -/
def loadWithFlag (registers : Registers) (x : Nibble) (value : Int) (flag : Bool) :
    Except Fault Registers := do
  return (← registers.setAll [(x.val, value), (flagIndex, flag.toInt)]).advance

/-- Combines the low eight bits of two registers bit by bit into the first. -/
def combine (registers : Registers) (operator : Nat → Nat → Nat) (x y : Nibble) :
    Except Fault Registers := do
  let first ← registers.value x
  let second ← registers.value y
  registers.load x (operator (Byte.ofInt first).val (Byte.ofInt second).val : Nat)

end Registers

/-- The hundreds, the tens and the ones of a value. -/
def decimalDigits (value : Int) : List Int :=
  [value / 100, value / 10 % 10, value % 10]

namespace Board

/-- Stores values at the address register, and moves on only if all of them fit. -/
def storeBlock (board : Board) (registers : Registers) (values : List Int) : Outcome :=
  let (answer, memory) := board.memory.writeBlock registers.i values
  (answer.map fun () => registers.advance, { board with memory })

/-- Loads bytes from the address register into the first registers. -/
def loadBlock (board : Board) (registers : Registers) (count : Nat) : Except Fault Registers := do
  let bytes ← board.memory.readBlock registers.i count
  let writes := bytes.zipIdx.map fun (byte, place) => ((place : Int), (byte.val : Int))
  return (← registers.setAll writes).advance

/-- The sprite at the address register, and the coordinates at which it is drawn. -/
def spriteAt (board : Board) (registers : Registers) (x y rows : Nibble) :
    Except Fault (List Int × Int × Int) := do
  let sprite ← board.memory.readBlock registers.i rows.val
  let column ← registers.value x
  let row ← registers.value y
  return (sprite.map fun byte => byte.val,
    column % board.display.mode.width, row % board.display.mode.height)

end Board

namespace Operation

/-- What an operation does with the fields of its word, apart from the cycle that it takes. -/
def perform (operation : Operation) (fields : Word.Fields) (registers : Registers)
    (board : Board) : Outcome :=
  match operation with
  -- Flow
  | .clear => (.ok registers.advance, { board with display := board.display.clear })
  | .ret => (do
      let (address, popped) ← registers.popFrame
      -- The frame holds the call itself, so execution goes on behind it.
      return (popped.jump address).advance, board)
  | .sys => (.ok registers.advance, board)
  | .jump => (.ok (registers.jump fields.address.val), board)
  | .call => (do
      return (← registers.pushFrame registers.pc).jump fields.address.val, board)
  | .jumpOffset => (do
      return registers.jump (fields.address.val + (← registers.peek 0)), board)
  -- Skips
  | .skipIfByte => (do
      return registers.skipIf ((← registers.value fields.x) == fields.byte.val), board)
  | .skipUnlessByte => (do
      return registers.skipIf ((← registers.value fields.x) != fields.byte.val), board)
  | .skipIfEqual => (do
      let first ← registers.value fields.x
      let second ← registers.value fields.y
      return registers.skipIf (first == second), board)
  | .skipUnlessEqual => (do
      let first ← registers.value fields.x
      let second ← registers.value fields.y
      return registers.skipIf (first != second), board)
  | .skipIfKey => (do
      return registers.skipIf (board.keypad.isHeld (← registers.value fields.x)), board)
  | .skipUnlessKey => (do
      return registers.skipIf (!board.keypad.isHeld (← registers.value fields.x)), board)
  -- Transfer and arithmetic
  | .loadByte => (registers.load fields.x fields.byte.val, board)
  | .addByte => (do
      registers.load fields.x ((← registers.value fields.x) + fields.byte.val), board)
  | .copy => (do
      registers.load fields.x (← registers.value fields.y), board)
  | .bitOr => (registers.combine Nat.lor fields.x fields.y, board)
  | .bitAnd => (registers.combine Nat.land fields.x fields.y, board)
  | .bitXor => (registers.combine Nat.xor fields.x fields.y, board)
  | .add => (do
      let first ← registers.value fields.x
      let second ← registers.value fields.y
      registers.loadWithFlag fields.x (first + second) (first + second > 0xFF), board)
  | .sub => (do
      let first ← registers.value fields.x
      let second ← registers.value fields.y
      registers.loadWithFlag fields.x (first - second) (first > second), board)
  | .shiftRight => (do
      let value ← registers.value fields.x
      registers.loadWithFlag fields.x (value / 2) (value % 2 == 1), board)
  | .subFrom => (do
      let first ← registers.value fields.x
      let second ← registers.value fields.y
      registers.loadWithFlag fields.x (second - first) (second > first), board)
  | .shiftLeft => (do
      let value ← registers.value fields.x
      registers.loadWithFlag fields.x (2 * value) (value / 128 % 2 == 1), board)
  | .random =>
      let (byte, rest) := board.random.draw
      (registers.load fields.x (Nat.land byte.val fields.byte.val : Nat),
        { board with random := rest })
  -- Address register and memory
  | .loadIndex => (.ok (registers.setIndex fields.address.val).advance, board)
  | .addIndex => (do
      -- Address arithmetic keeps to twelve bits.
      return (registers.setIndex ((registers.i + (← registers.value fields.x)) % 4096)).advance,
      board)
  | .loadGlyph => (do
      return (registers.setIndex (glyphAddress (← registers.value fields.x))).advance, board)
  | .storeDecimal =>
      match registers.value fields.x with
      | .ok value => board.storeBlock registers (decimalDigits value)
      | .error fault => (.error fault, board)
  | .storeRegisters => board.storeBlock registers (registers.v.take (fields.x.val + 1))
  | .loadRegisters => (board.loadBlock registers (fields.x.val + 1), board)
  -- Display, keys and timers
  | .draw =>
      match board.spriteAt registers fields.x fields.y fields.nibble with
      | .ok (sprite, column, row) =>
        let (collided, display) := board.display.draw column row sprite
        (registers.load 15 collided.toInt, { board with display })
      | .error fault => (.error fault, board)
  | .waitKey =>
      -- Presses from before the wait must not answer it.
      (registers.awaitKey fields.x.val, { board with keypad := board.keypad.flush })
  | .readDelay => (registers.load fields.x registers.delayTimer, board)
  | .setDelay => (do
      return (registers.setDelay (← registers.value fields.x)).advance, board)
  | .setSound => (do
      return (registers.setSound (← registers.value fields.x)).advance, board)

end Operation

/-- The effect of an instruction, which is that of its operation on its operands. -/
def Instruction.perform (instruction : Instruction) (registers : Registers) (board : Board) :
    Outcome :=
  instruction.operation.perform instruction.fields registers board

/-- Executes an instruction word, which takes one cycle, or refuses a word without instruction. -/
def execute (word : Word) (registers : Registers) (board : Board) : Outcome :=
  match word.operation? with
  | none => (.error (.unknownOpcode word (some registers.pc)), board)
  | some operation =>
    let (result, left) := operation.perform word.fields registers board
    (result.map Registers.countCycle, left)

end Chip8
