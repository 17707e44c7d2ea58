import Chip8.Proofs.Execution.Valid
import Chip8.Proofs.Instruction.Code

/-!
What arithmetic makes of the general registers, whichever of them an instruction names.

Results and flags are those of the registers before the instruction, also where the first
register, the second or both are the flag register.
-/

namespace Chip8

namespace Registers

/-- One register holds the low eight bits of a value, and no other register has changed. -/
structure Loaded (registers : Registers) (x : Nibble) (value : Int)
    (result : Registers) : Prop where
  /-- The register holds what fits of the value. -/
  target : result.reg x = value % 256
  /-- All other registers are kept, the flag among them. -/
  others : ∀ other : Nibble, other ≠ x → result.reg other = registers.reg other

/-- A register and the flag register hold a result and its flag, and no other has changed. -/
structure Flagged (registers : Registers) (x : Nibble) (value : Int) (flag : Bool)
    (result : Registers) : Prop where
  /-- The flag register holds the flag, also if the result was meant for it. -/
  flag : result.reg 15 = flag.toInt
  /-- Any other register takes what fits of the result. -/
  target : x ≠ 15 → result.reg x = value % 256
  /-- The remaining registers are kept. -/
  others : ∀ other : Nibble, other ≠ x → other ≠ 15 → result.reg other = registers.reg other

variable {registers : Registers}

/-- A load leaves its register loaded. -/
theorem load_loaded (general : registers.v.length = 16) (x : Nibble) (value : Int) :
    ∃ result, registers.load x value = .ok result ∧ registers.Loaded x value result := by
  -- Moving on touches no register.
  refine ⟨_, load_of_general general x value, ?_, ?_⟩
  · exact (reg_write general x x _).trans (if_pos rfl)
  · intro other apart
    exact (reg_write general x other _).trans (if_neg apart)

/-- A load with a flag leaves its register and the flag register loaded. -/
theorem loadWithFlag_flagged (general : registers.v.length = 16) (x : Nibble) (value : Int)
    (flag : Bool) :
    ∃ result, registers.loadWithFlag x value flag = .ok result ∧
      registers.Flagged x value flag result := by
  -- The flag is written into the sixteen registers that the first write has left.
  have written (other : Nibble) := reg_write general x other (value % 256)
  have second (other : Nibble) := reg_write (List.length_set.trans general :
    ({ registers with v := registers.v.set x.val (value % 256) }).v.length = 16) 15 other
    (flag.toInt % 256)
  refine ⟨_, loadWithFlag_of_general general x value flag, ?_, ?_, ?_⟩
  · refine (second 15).trans ?_
    rw [if_pos rfl]
    cases flag <;> rfl
  · intro apart
    refine (second x).trans ?_
    rw [if_neg apart, written, if_pos rfl]
  · intro other apart plain
    refine (second other).trans ?_
    rw [if_neg plain, written, if_neg apart]

end Registers

variable {word : Word} {instruction : Instruction} {registers : Registers} {board left : Board}

/-! ### Words that load registers -/

/-- A word is executed and loads a value into a register, and nothing into any other. -/
def Word.Loads (word : Word) (registers : Registers) (board : Board) (x : Nibble) (value : Int)
    (left : Board) : Prop :=
  ∃ result, execute word registers board = (.ok result, left) ∧ registers.Loaded x value result

/-- A word is executed and loads a result and a flag that are tied to each other by a law. -/
def Word.Flags (word : Word) (registers : Registers) (board : Board) (x : Nibble)
    (law : Int → Bool → Prop) : Prop :=
  ∃ value flag result, execute word registers board = (.ok result, board) ∧
    registers.Flagged x value flag result ∧ law value flag

/-- A word loads a register if its instruction does. -/
theorem Word.Loads.of_perform (general : registers.v.length = 16) {x : Nibble} {value : Int}
    (codes : word.Codes instruction)
    (performed : instruction.perform registers board = (registers.load x value, left)) :
    word.Loads registers board x value left := by
  -- Counting the cycle touches no register.
  obtain ⟨result, done, loaded⟩ := Registers.load_loaded general x value
  rw [done] at performed
  exact ⟨result.countCycle, execute_performed (Word.decode_of_codes codes) performed,
    loaded.target, loaded.others⟩

/-- The low eight bits of a byte are the byte. -/
theorem Byte.ofInt_val {value : Int} (range : 0 ≤ value ∧ value ≤ 0xFF) :
    (Byte.ofInt value).val = value.toNat := by
  -- Nothing is cut off below 256.
  simp only [Byte.ofInt]
  omega

/-- A word loads the combined bits of two bytes if its instruction combines them. -/
theorem Word.Loads.of_combine (general : registers.v.length = 16)
    (bytes : ∀ value ∈ registers.v, 0 ≤ value ∧ value ≤ 0xFF) {x y : Nibble}
    {operator : Nat → Nat → Nat} (codes : word.Codes instruction)
    (performed : instruction.perform registers board = (registers.combine operator x y, board)) :
    word.Loads registers board x
      (operator (registers.reg x).toNat (registers.reg y).toNat : Nat) board := by
  -- The operands are cut to eight bits before they are combined, and a byte stays what it is.
  have left := Byte.ofInt_val (Registers.range_of_general general bytes x)
  have right := Byte.ofInt_val (Registers.range_of_general general bytes y)
  rw [Registers.combine_of_general general, left, right] at performed
  exact .of_perform general codes performed

/-- A word loads a result and a flag if its instruction does. -/
theorem Word.Flags.of_perform (general : registers.v.length = 16) {x : Nibble} {value : Int}
    {flag : Bool} {law : Int → Bool → Prop} (codes : word.Codes instruction)
    (performed : instruction.perform registers board = (registers.loadWithFlag x value flag, board))
    (lawful : law value flag) : word.Flags registers board x law := by
  -- Counting the cycle touches no register.
  obtain ⟨result, done, flagged⟩ := Registers.loadWithFlag_flagged general x value flag
  rw [done] at performed
  exact ⟨value, flag, result.countCycle, execute_performed (Word.decode_of_codes codes) performed,
    ⟨flagged.flag, flagged.target, flagged.others⟩, lawful⟩

/-! ### The law of arithmetic -/

/-- What each arithmetic word does to sixteen bytes, for all choices of its registers. -/
structure ArithmeticLaw (registers : Registers) (board : Board) (x y : Nibble) : Prop where
  /-- The carry and the result of an addition are the sum. -/
  add : (Word.ofNibbles 0x8 x y 0x4).Flags registers board x fun value flag =>
    256 * flag.toInt + value % 256 = registers.reg x + registers.reg y
  /-- A subtraction sets the flag exactly if the first register is greater. -/
  sub : (Word.ofNibbles 0x8 x y 0x5).Flags registers board x fun value flag =>
    value = registers.reg x - registers.reg y ∧ (flag = true ↔ registers.reg x > registers.reg y)
  /-- Half of a register and the bit that is lost are the register. -/
  shiftRight : (Word.ofNibbles 0x8 x y 0x6).Flags registers board x fun value flag =>
    2 * value + flag.toInt = registers.reg x
  /-- A subtraction from the second register sets the flag exactly if that one is greater. -/
  subFrom : (Word.ofNibbles 0x8 x y 0x7).Flags registers board x fun value flag =>
    value = registers.reg y - registers.reg x ∧ (flag = true ↔ registers.reg y > registers.reg x)
  /-- The bit that is lost and the result of a doubling are the double. -/
  shiftLeft : (Word.ofNibbles 0x8 x y 0xE).Flags registers board x fun value flag =>
    256 * flag.toInt + value % 256 = 2 * registers.reg x
  /-- The addition of a byte has no flag. -/
  addByte : ∀ byte, (Word.ofByte 0x7 x byte).Loads registers board x
    (registers.reg x + byte.val) board
  /-- A copy is the second register. -/
  copy : (Word.ofNibbles 0x8 x y 0x0).Loads registers board x (registers.reg y) board
  /-- A bit of the result is set if it is set in one of the registers. -/
  bitOr : (Word.ofNibbles 0x8 x y 0x1).Loads registers board x
    ((registers.reg x).toNat ||| (registers.reg y).toNat : Nat) board
  /-- A bit of the result is set if it is set in both registers. -/
  bitAnd : (Word.ofNibbles 0x8 x y 0x2).Loads registers board x
    ((registers.reg x).toNat &&& (registers.reg y).toNat : Nat) board
  /-- A bit of the result is set if it is set in exactly one of the registers. -/
  bitXor : (Word.ofNibbles 0x8 x y 0x3).Loads registers board x
    ((registers.reg x).toNat ^^^ (registers.reg y).toNat : Nat) board
  /-- A random byte is drawn, and kept where the mask has bits. -/
  random : ∀ mask, (Word.ofByte 0xC x mask).Loads registers board x
    (board.random.draw.1.val &&& mask.val : Nat) { board with random := board.random.draw.2 }

/-- The carry of two bytes is the ninth bit of their sum. -/
theorem carry_of_bytes {first second : Int} (left : 0 ≤ first ∧ first ≤ 0xFF)
    (right : 0 ≤ second ∧ second ≤ 0xFF) :
    256 * (decide (first + second > 0xFF)).toInt + (first + second) % 256 = first + second := by
  -- A sum of two bytes is below 512, so the carry is at most one.
  by_cases carry : first + second > 0xFF
  · simp only [carry, decide_true, Bool.toInt_true]
    omega
  · simp only [carry, decide_false, Bool.toInt_false]
    omega

/-- A value is twice its half and the bit that halving loses. -/
theorem lowest_bit (value : Int) : 2 * (value / 2) + (value % 2 == 1).toInt = value := by
  -- The bit is the remainder by two.
  rcases Int.emod_two_eq value with even | odd
  · simp only [even]
    show 2 * (value / 2) + 0 = value
    omega
  · simp only [odd]
    show 2 * (value / 2) + 1 = value
    omega

/-- The top bit of a byte is the ninth bit of its double. -/
theorem highest_bit {value : Int} (range : 0 ≤ value ∧ value ≤ 0xFF) :
    256 * (value / 128 % 2 == 1).toInt + 2 * value % 256 = 2 * value := by
  -- The byte is at least 128 exactly if its double has a ninth bit.
  rcases Int.emod_two_eq (value / 128) with clear | set
  · simp only [clear]
    show 256 * 0 + 2 * value % 256 = 2 * value
    omega
  · simp only [set]
    show 256 * 1 + 2 * value % 256 = 2 * value
    omega

/--
Arithmetic is not disturbed by registers that are named twice.

On sixteen bytes every arithmetic word computes its result and its flag from the registers before
it, whichever registers it names.
The flag is written last, and only by the operations that have one.
-/
theorem arithmetic_under_aliasing (general : registers.v.length = 16)
    (bytes : ∀ value ∈ registers.v, 0 ≤ value ∧ value ≤ 0xFF) (board : Board) (x y : Nibble) :
    ArithmeticLaw registers board x y := by
  -- Both registers are read before anything is written, and hold bytes.
  have first := Registers.value_of_general general x
  have second := Registers.value_of_general general y
  have left := Registers.range_of_general general bytes x
  have right := Registers.range_of_general general bytes y
  constructor
  -- Operations with a flag.
  case add =>
    have performed : (Instruction.add x y).perform registers board =
        (registers.loadWithFlag x (registers.reg x + registers.reg y)
          (registers.reg x + registers.reg y > 0xFF), board) := by
      simp [Instruction.perform, Instruction.operation, Instruction.fields, Operation.perform,
        first, second]
    exact .of_perform general (by simp [Word.Codes]) performed (carry_of_bytes left right)
  case sub =>
    have performed : (Instruction.sub x y).perform registers board =
        (registers.loadWithFlag x (registers.reg x - registers.reg y)
          (registers.reg x > registers.reg y), board) := by
      simp [Instruction.perform, Instruction.operation, Instruction.fields, Operation.perform,
        first, second]
    exact .of_perform general (by simp [Word.Codes]) performed ⟨rfl, decide_eq_true_iff⟩
  case shiftRight =>
    have performed : (Instruction.shiftRight x).perform registers board =
        (registers.loadWithFlag x (registers.reg x / 2) (registers.reg x % 2 == 1), board) := by
      simp [Instruction.perform, Instruction.operation, Instruction.fields, Operation.perform,
        first]
    exact .of_perform general (by simp [Word.Codes]) performed (lowest_bit _)
  case subFrom =>
    have performed : (Instruction.subFrom x y).perform registers board =
        (registers.loadWithFlag x (registers.reg y - registers.reg x)
          (registers.reg y > registers.reg x), board) := by
      simp [Instruction.perform, Instruction.operation, Instruction.fields, Operation.perform,
        first, second]
    exact .of_perform general (by simp [Word.Codes]) performed ⟨rfl, decide_eq_true_iff⟩
  case shiftLeft =>
    have performed : (Instruction.shiftLeft x).perform registers board =
        (registers.loadWithFlag x (2 * registers.reg x) (registers.reg x / 128 % 2 == 1),
          board) := by
      simp [Instruction.perform, Instruction.operation, Instruction.fields, Operation.perform,
        first]
    exact .of_perform general (by simp [Word.Codes]) performed (highest_bit left)
  -- Operations without a flag.
  case addByte =>
    intro byte
    have performed : (Instruction.addByte x byte).perform registers board =
        (registers.load x (registers.reg x + byte.val), board) := by
      simp [Instruction.perform, Instruction.operation, Instruction.fields, Operation.perform,
        first]
    exact .of_perform general (by simp [Word.Codes]) performed
  case copy =>
    have performed : (Instruction.copy x y).perform registers board =
        (registers.load x (registers.reg y), board) := by
      simp [Instruction.perform, Instruction.operation, Instruction.fields, Operation.perform,
        second]
    exact .of_perform general (by simp [Word.Codes]) performed
  case bitOr =>
    have performed : (Instruction.bitOr x y).perform registers board =
        (registers.combine (· ||| ·) x y, board) := rfl
    exact .of_combine general bytes (by simp [Word.Codes]) performed
  case bitAnd =>
    have performed : (Instruction.bitAnd x y).perform registers board =
        (registers.combine (· &&& ·) x y, board) := rfl
    exact .of_combine general bytes (by simp [Word.Codes]) performed
  case bitXor =>
    have performed : (Instruction.bitXor x y).perform registers board =
        (registers.combine (· ^^^ ·) x y, board) := rfl
    exact .of_combine general bytes (by simp [Word.Codes]) performed
  case random =>
    intro mask
    -- The byte is drawn first, so it is gone from the source.
    have performed : (Instruction.random x mask).perform registers board =
        (registers.load x (board.random.draw.1.val &&& mask.val : Nat),
          { board with random := board.random.draw.2 }) := rfl
    exact .of_perform general (by simp [Word.Codes]) performed

/-- The flag register doubled by addition keeps the carry, and the sum is lost. -/
theorem arithmetic_under_aliasing_doubled :
    ∃ result, execute 0x8FF4 { v := List.replicate 16 200 } emptyBoard = (.ok result, emptyBoard) ∧
      result.reg 15 = 1 ∧ ∀ other : Nibble, other ≠ 15 → result.reg other = 200 := by
  have bytes : ∀ value ∈ List.replicate 16 (200 : Int), 0 ≤ value ∧ value ≤ 0xFF := by decide
  have general : ({ v := List.replicate 16 200 } : Registers).v.length = 16 := rfl
  have law := arithmetic_under_aliasing general bytes emptyBoard 15 15
  obtain ⟨value, flag, result, executed, flagged, sum⟩ := law.add
  refine ⟨result, executed, ?_, ?_⟩
  · -- The sum is 400, so the carry is set.
    rw [flagged.flag]
    cases flag with
    | true => rfl
    | false =>
      have twice : 256 * (0 : Int) + value % 256 = 200 + 200 := sum
      omega
  · intro other apart
    rw [flagged.others other apart apart]
    revert other
    decide

end Chip8
