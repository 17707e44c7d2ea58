import Chip8.Proofs.Execution.Valid
import Chip8.Proofs.Instruction.Code

/-!
Where a word leaves the counter, and that it computes nothing else from it.

A word jumps, waits where it is, or moves on by one word or over the next.
-/

namespace Chip8

namespace Registers

variable {registers : Registers}

/-- The register file at another address. -/
def withCounter (registers : Registers) (pc : Int) : Registers :=
  { registers with pc }

/-- A register that can be read holds what is read. -/
theorem reg_of_value {x : Nibble} {value : Int} (read : registers.value x = .ok value) :
    registers.reg x = value := by
  -- Reading without a check differs only where there is no register.
  simp only [Registers.value, peek] at read
  split at read
  · rename_i stored found
    cases read
    simp [reg, List.getD_eq_getElem?_getD, found]
  · cases read

variable (registers : Registers) (pc : Int)

/-- A register holds what it holds. -/
@[simp]
theorem value_withCounter (x : Nibble) : (registers.withCounter pc).value x = registers.value x :=
  rfl

/-- A skip leaves the address behind the next word. -/
@[simp]
theorem skipIf_withCounter (condition : Bool) :
    (registers.withCounter pc).skipIf condition = (registers.skipIf condition).withCounter
      (if condition then (pc + 4) % 65536 else (pc + 2) % 65536) := by
  -- Two instructions are four bytes, and one is two.
  cases condition <;> rfl

/-- A jump from any address leads to its target. -/
@[simp]
theorem jump_withCounter (target : Int) :
    (registers.withCounter pc).jump target =
      (registers.jump target).withCounter (target % 65536) :=
  rfl

/-- A register is set at any address. -/
@[simp]
theorem set_withCounter (index value : Int) :
    (registers.withCounter pc).set index value =
      (registers.set index value).map (·.withCounter pc) :=
  set_comm (·.withCounter pc) (fun _ => rfl) (fun _ _ => rfl) registers index value

/-- Several registers are set at any address. -/
@[simp]
theorem setAll_withCounter (writes : List (Int × Int)) :
    (registers.withCounter pc).setAll writes =
      (registers.setAll writes).map (·.withCounter pc) :=
  setAll_comm (·.withCounter pc) (fun _ => rfl) (fun _ _ => rfl) registers writes

/-- A register is loaded at any address. -/
@[simp]
theorem load_withCounter (x : Nibble) (value : Int) :
    (registers.withCounter pc).load x value =
      (registers.load x value).map (·.withCounter ((pc + 2) % 65536)) := by
  -- The write hands its file on to the counter.
  rw [load, load, set_withCounter]
  cases registers.set x.val value <;> rfl

/-- A result and its flag are loaded at any address. -/
@[simp]
theorem loadWithFlag_withCounter (x : Nibble) (value : Int) (flag : Bool) :
    (registers.withCounter pc).loadWithFlag x value flag =
      (registers.loadWithFlag x value flag).map (·.withCounter ((pc + 2) % 65536)) := by
  -- Both writes hand their file on to the counter.
  rw [loadWithFlag, loadWithFlag, setAll_withCounter]
  cases registers.setAll _ <;> rfl

/-- Two registers are combined at any address. -/
@[simp]
theorem combine_withCounter (operator : Nat → Nat → Nat) (x y : Nibble) :
    (registers.withCounter pc).combine operator x y =
      (registers.combine operator x y).map (·.withCounter ((pc + 2) % 65536)) := by
  simp only [combine, value_withCounter, load_withCounter]
  cases registers.value x <;> cases registers.value y <;> rfl

/-- Where one address can be saved, so can another, and nothing else differs. -/
theorem pushFrame_withCounter {address : Int} {saved : Registers}
    (done : registers.pushFrame address = .ok saved) (other : Int) :
    (registers.withCounter pc).pushFrame other = .ok
      { saved.withCounter pc with stack := saved.stack.set saved.sp.toNat (other % 65536) } := by
  -- The place is the one behind the pointer, and it is overwritten.
  have same : (registers.withCounter pc).stack = registers.stack ∧
    (registers.withCounter pc).sp = registers.sp := ⟨rfl, rfl⟩
  simp only [pushFrame, same] at done ⊢
  split at done
  · rename_i inside
    cases done
    rw [if_pos inside]
    simp [withCounter]
  · cases done

/-- A frame is given up at any address. -/
@[simp]
theorem popFrame_withCounter :
    (registers.withCounter pc).popFrame =
      registers.popFrame.map fun (address, left) => (address, left.withCounter pc) := by
  -- The frame is found by the pointer alone.
  have same : (registers.withCounter pc).frameAt (registers.withCounter pc).sp =
    registers.frameAt registers.sp := rfl
  simp only [popFrame, same]
  cases registers.frameAt registers.sp <;> rfl

variable {registers} in
/-- What is given up is the frame at the stack pointer. -/
theorem getD_of_popFrame {address : Int} {popped : Registers} (low : 0 ≤ registers.sp)
    (done : registers.popFrame = .ok (address, popped)) :
    registers.stack.getD registers.sp.toNat 0 = address := by
  -- A pointer that is not negative counts from the first frame.
  obtain ⟨frame, found, same⟩ := bind_eq_ok.mp done
  cases same
  simp only [frameAt, Int.not_lt.mpr low, if_false] at found
  split at found
  · rename_i stored place
    cases found
    rw [List.getD_eq_getElem?_getD, place, Option.getD_some]
  · cases found

end Registers

namespace Board

variable (board : Board) (registers : Registers) (pc : Int)

/-- A block is stored at any address. -/
@[simp]
theorem storeBlock_withCounter (values : List Int) :
    board.storeBlock (registers.withCounter pc) values =
      ((board.storeBlock registers values).1.map (·.withCounter ((pc + 2) % 65536)),
        (board.storeBlock registers values).2) := by
  -- The block is stored at the address register, not at the counter.
  have same : (registers.withCounter pc).i = registers.i := rfl
  simp only [storeBlock, same]
  rcases board.memory.writeBlock registers.i values with ⟨- | -, memory⟩ <;> rfl

/-- A block is loaded at any address. -/
@[simp]
theorem loadBlock_withCounter (count : Nat) :
    board.loadBlock (registers.withCounter pc) count =
      (board.loadBlock registers count).map (·.withCounter ((pc + 2) % 65536)) := by
  -- The bytes that are read become writes, which hand their file on to the counter.
  have same : (registers.withCounter pc).i = registers.i := rfl
  simp only [loadBlock, same, Registers.setAll_withCounter]
  cases board.memory.readBlock registers.i count with
  | error fault => rfl
  | ok bytes =>
    simp only [ok_bind]
    cases registers.setAll _ <;> rfl

end Board

/-! ### The rule of the counter -/

namespace Word

/-- A word compares what it names, and skips the next word. -/
def Skips (word : Word) (registers : Registers) (board : Board) : Prop :=
  let first := registers.reg word.x
  let second := registers.reg word.y
  let held := board.keypad.held.get (Nibble.ofInt first)
  word.opclass = 0x3 ∧ first = word.byte.val ∨ word.opclass = 0x4 ∧ first ≠ word.byte.val ∨
    word.opclass = 0x5 ∧ first = second ∨ word.opclass = 0x9 ∧ first ≠ second ∨
    word.opclass = 0xE ∧ word.byte = 0x9E ∧ held = true ∨
    word.opclass = 0xE ∧ word.byte = 0xA1 ∧ held = false

/-- Whether a word skips can be computed. -/
instance (word : Word) (registers : Registers) (board : Board) :
    Decidable (word.Skips registers board) :=
  inferInstanceAs (Decidable (_ ∨ _))

/-- Where execution goes on behind a word at an address. -/
def successor (word : Word) (registers : Registers) (board : Board) (pc : Int) : Int :=
  if word.opclass = 0x1 ∨ word.opclass = 0x2 then word.address.val
  else if word.opclass = 0xB then (word.address.val + registers.reg 0) % 65536
  -- The frame holds the call, so a return goes on behind it.
  else if word = 0x00EE then (registers.stack.getD registers.sp.toNat 0 + 2) % 65536
  else if word.opclass = 0xF ∧ word.byte = 0x0A then pc
  else if word.Skips registers board then (pc + 4) % 65536
  else (pc + 2) % 65536

variable {word : Word} (registers : Registers) (board : Board) (pc : Int)

/-- The return has the class of host calls. -/
theorem ne_return (class_ne : word.opclass ≠ 0x0) : word ≠ 0x00EE :=
  fun same => class_ne (congrArg opclass same)

/-- Words that neither jump nor skip nor wait are followed by the next word. -/
theorem successor_plain (moves : word.opclass ∉ [0x1, 0x2, 0x3, 0x4, 0x5, 0x9, 0xB, 0xE])
    (returns : word ≠ 0x00EE) (waits : ¬(word.opclass = 0xF ∧ word.byte = 0x0A)) :
    word.successor registers board pc = (pc + 2) % 65536 := by
  -- Every condition of the rule names a class that the word does not have.
  simp only [List.mem_cons, List.not_mem_nil, or_false, not_or] at moves
  simp [successor, Skips, moves, returns, waits]

/-- Words of most classes are followed by the next word. -/
theorem successor_of_class (top : word.opclass ∈ [0x6, 0x7, 0x8, 0xA, 0xC, 0xD]) :
    word.successor registers board pc = (pc + 2) % 65536 := by
  simp only [List.mem_cons, List.not_mem_nil, or_false] at top
  apply successor_plain registers board pc ?_ (ne_return ?_)
  all_goals rcases top with top | top | top | top | top | top <;> simp [top]

/-- Words for devices are followed by the next word, but for the wait. -/
theorem successor_of_device (top : word.opclass = 0xF) (waits : word.byte ≠ 0x0A) :
    word.successor registers board pc = (pc + 2) % 65536 := by
  exact successor_plain registers board pc (by simp [top]) (ne_return (by simp [top]))
    fun both => waits both.2

/-- Words of the classes that skip are followed by the next word or the one behind it. -/
theorem successor_skip (skips : word.opclass ∈ [0x3, 0x4, 0x5, 0x9, 0xE]) :
    word.successor registers board pc =
      if word.Skips registers board then (pc + 4) % 65536 else (pc + 2) % 65536 := by
  -- None of these classes jumps, returns or waits.
  simp only [List.mem_cons, List.not_mem_nil, or_false] at skips
  have returns : word ≠ 0x00EE := by
    apply ne_return
    rcases skips with top | top | top | top | top <;> simp [top]
  rcases skips with top | top | top | top | top <;> simp [successor, top, returns]

end Word

variable {word : Word} {instruction : Instruction} {registers result : Registers}
  {board left : Board}

/-! ### Instructions at another address -/

namespace Instruction

/-- The instructions that are followed by the next one, whatever they find. -/
def movesOn : Instruction → Bool
  | .ret | .jump _ | .call _ | .jumpOffset _ | .skipIfByte _ _ | .skipUnlessByte _ _
  | .skipIfEqual _ _ | .skipUnlessEqual _ _ | .skipIfKey _ | .skipUnlessKey _ | .waitKey _ => false
  | _ => true

/-- The word behind the word of an instruction that moves on is the next one. -/
theorem successor_of_movesOn (codes : word.Codes instruction)
    (moves : instruction.movesOn = true) (registers : Registers) (board : Board) (pc : Int) :
    word.successor registers board pc = (pc + 2) % 65536 := by
  -- The digits of the instruction are none of those that the rule names.
  cases instruction with
  | clear =>
    cases codes
    rfl
  | sys =>
    obtain ⟨top, -, returns, -⟩ := codes
    exact Word.successor_plain _ _ _ (by simp [top]) returns (by simp [top])
  | loadByte | addByte | copy | bitOr | bitAnd | bitXor | add | sub | shiftRight | subFrom
  | shiftLeft | loadIndex | random | draw =>
    simp only [Word.Codes] at codes
    exact Word.successor_of_class _ _ _ (by simp [codes])
  | readDelay | setDelay | setSound | addIndex | loadGlyph | storeDecimal | storeRegisters
  | loadRegisters =>
    obtain ⟨top, -, low⟩ := codes
    exact Word.successor_of_device _ _ _ top (by simp [low])
  | _ => cases moves

/-- An instruction that moves on does the same at any address. -/
theorem perform_movesOn (moves : instruction.movesOn = true) (registers : Registers)
    (board : Board) (pc : Int) :
    instruction.perform (registers.withCounter pc) board =
      ((instruction.perform registers board).1.map (·.withCounter ((pc + 2) % 65536)),
        (instruction.perform registers board).2) := by
  -- Registers are read alike and written alike, and the counter is only moved.
  cases instruction with
  | clear | sys | loadIndex => rfl
  -- Transfer and arithmetic
  | loadByte | bitOr | bitAnd | bitXor | random =>
    simp only [perform, operation, fields, Operation.perform, Registers.load_withCounter,
      Registers.combine_withCounter]
  | readDelay x => exact Prod.ext (registers.load_withCounter pc x _) rfl
  | addByte x | shiftRight x | shiftLeft x =>
    simp only [perform, operation, fields, Operation.perform, Registers.value_withCounter,
      Registers.load_withCounter, Registers.loadWithFlag_withCounter]
    cases registers.value x <;> rfl
  | copy x y =>
    simp only [perform, operation, fields, Operation.perform, Registers.value_withCounter,
      Registers.load_withCounter]
    cases registers.value y <;> rfl
  | add x y | sub x y | subFrom x y =>
    simp only [perform, operation, fields, Operation.perform, Registers.value_withCounter,
      Registers.loadWithFlag_withCounter]
    cases registers.value x <;> cases registers.value y <;> rfl
  -- Address register, timers and memory
  | addIndex x | loadGlyph x | setDelay x | setSound x =>
    simp only [perform, operation, fields, Operation.perform, Registers.value_withCounter]
    cases registers.value x <;> rfl
  | storeDecimal x =>
    simp only [perform, operation, fields, Operation.perform, Registers.value_withCounter]
    cases registers.value x with
    | error fault => rfl
    | ok value => exact board.storeBlock_withCounter registers pc _
  | storeRegisters x => exact board.storeBlock_withCounter registers pc _
  | loadRegisters x =>
    simp only [perform, operation, fields, Operation.perform, Board.loadBlock_withCounter]
  -- Display
  | draw x y rows =>
    have same : board.spriteAt (registers.withCounter pc) x y rows =
      board.spriteAt registers x y rows := rfl
    simp only [perform, operation, fields, Operation.perform, same]
    cases board.spriteAt registers x y rows with
    | error fault => rfl
    | ok placed => simp only [Registers.load_withCounter]
  | _ => cases moves

/-- Only a call computes anything from the counter but the next counter. -/
theorem perform_withCounter (codes : word.Codes instruction) (inRing : 0 ≤ registers.sp)
    (calls : word.opclass ≠ 0x2) (pc : Int) :
    instruction.perform (registers.withCounter pc) board =
      ((instruction.perform registers board).1.map
        (·.withCounter (word.successor registers board pc)),
        (instruction.perform registers board).2) := by
  cases instruction with
  | call => exact absurd codes.1 calls
  -- Jumps
  | ret =>
    cases codes
    simp only [perform, operation, Operation.perform, Registers.popFrame_withCounter]
    cases popped : registers.popFrame with
    | error fault => rfl
    | ok frame =>
      obtain ⟨address, left⟩ := frame
      have frame := Registers.getD_of_popFrame inRing popped
      have next : Word.successor 0x00EE registers board pc = (address + 2) % 65536 :=
        congrArg (fun frame => (frame + 2) % 65536) frame
      -- The frame is cut to the address space before the counter moves on behind it.
      have moved : (address % 65536 + 2) % 65536 = (address + 2) % 65536 := by omega
      rw [next, ← moved]
      rfl
  | jump target =>
    obtain ⟨top, rfl⟩ := codes
    have next : word.successor registers board pc = (word.address.val : Int) % 65536 := by
      rw [Word.successor, if_pos (.inl top)]
      omega
    rw [next]
    rfl
  | jumpOffset target =>
    obtain ⟨top, rfl⟩ := codes
    have same : (registers.withCounter pc).peek 0 = registers.value 0 := rfl
    have first : registers.peek 0 = registers.value 0 := rfl
    simp only [perform, operation, fields, Operation.perform, same, first]
    cases read : registers.value 0 with
    | error fault => rfl
    | ok value => simp [Word.successor, top, Registers.reg_of_value read, Except.map]
  -- Skips, on what is read from the registers that the word names
  | skipIfByte x byte | skipUnlessByte x byte =>
    obtain ⟨top, rfl, rfl⟩ := codes
    rw [Word.successor_skip _ _ _ (by simp [top])]
    simp only [perform, operation, fields, Operation.perform, Registers.value_withCounter]
    cases read : registers.value word.x with
    | error fault => rfl
    | ok value => simp [Word.Skips, top, Registers.reg_of_value read, Except.map]
  | skipIfEqual x y | skipUnlessEqual x y =>
    obtain ⟨top, rfl, rfl⟩ := codes
    rw [Word.successor_skip _ _ _ (by simp [top])]
    simp only [perform, operation, fields, Operation.perform, Registers.value_withCounter]
    cases first : registers.value word.x with
    | error fault => rfl
    | ok value =>
      cases second : registers.value word.y with
      | error fault => rfl
      | ok other =>
        simp [Word.Skips, top, Registers.reg_of_value first, Registers.reg_of_value second,
          Except.map]
  | skipIfKey x | skipUnlessKey x =>
    obtain ⟨top, rfl, low⟩ := codes
    rw [Word.successor_skip _ _ _ (by simp [top])]
    simp only [perform, operation, fields, Operation.perform, Registers.value_withCounter]
    cases read : registers.value word.x with
    | error fault => rfl
    | ok value =>
      have held : board.keypad.isHeld value = board.keypad.held.get (Nibble.ofInt value) := rfl
      simp [Word.Skips, top, low, Registers.reg_of_value read, held, Except.map]
  | waitKey x =>
    obtain ⟨top, -, low⟩ := codes
    have returns : word ≠ 0x00EE := Word.ne_return (by simp [top])
    have next : word.successor registers board pc = pc := by
      simp [Word.successor, top, low, returns]
    rw [next]
    simp only [perform, operation, fields, Operation.perform, Registers.awaitKey_eq]
    rfl
  -- All others move on
  | _ =>
    rw [successor_of_movesOn codes rfl, perform_movesOn rfl]

/-- A call saves the counter, and computes nothing else from it. -/
theorem perform_call_withCounter {target : Address}
    (done : (Instruction.call target).perform registers board = (.ok result, left)) (pc : Int) :
    result.pc = target.val ∧ (Instruction.call target).perform (registers.withCounter pc) board =
      (.ok { result with stack := result.stack.set result.sp.toNat (pc % 65536) }, left) := by
  -- The target is fixed, so only the saved frame can differ.
  obtain ⟨called, rfl⟩ := Prod.mk.inj done
  obtain ⟨saved, pushed, jumped⟩ := bind_eq_ok.mp called
  cases jumped
  have bounded : (target.val : Int) % 65536 = target.val := by omega
  have same : (registers.withCounter pc).pc = pc := rfl
  refine ⟨bounded, ?_⟩
  simp only [perform, operation, fields, Operation.perform, same, Registers.pushFrame_withCounter
    registers pc pushed pc]
  rfl

end Instruction

/-! ### Words at another address -/

/-- A word executed at another address gives the same, but for its own address. -/
theorem execute_withCounter (inRing : 0 ≤ registers.sp)
    (done : execute word registers board = (.ok result, left)) (pc : Int) :
    result.pc = word.successor registers board registers.pc ∧
      execute word (registers.withCounter pc) board =
        (.ok { result with
          pc := word.successor registers board pc
          stack := if word.opclass = 0x2 then result.stack.set result.sp.toNat (pc % 65536)
            else result.stack }, left) := by
  obtain ⟨instruction, moved, decoded, performed, rfl⟩ := execute_done done
  have codes := Word.codes_of_decode decoded
  -- A call is told apart by what it saves, and all else moves the counter only.
  by_cases calls : word.opclass = 0x2
  · have called : word.decode = some (.call word.address) := Word.decode_of_codes ⟨calls, rfl⟩
    obtain rfl := Option.some.inj (decoded.symm.trans called)
    obtain ⟨there, elsewhere⟩ := Instruction.perform_call_withCounter performed pc
    have next (place : Int) : word.successor registers board place = word.address.val :=
      if_pos (.inr calls)
    refine ⟨there.trans (next _).symm, ?_⟩
    rw [execute_performed decoded elsewhere, next, if_pos calls, ← there]
    rfl
  · have elsewhere (place : Int) : instruction.perform (registers.withCounter place) board =
        (.ok (moved.withCounter (word.successor registers board place)), left) := by
      rw [Instruction.perform_withCounter codes inRing calls, performed]
      rfl
    -- The register file is where it is.
    have here := elsewhere registers.pc
    rw [show registers.withCounter registers.pc = registers from rfl, performed] at here
    refine ⟨congrArg Registers.pc (Except.ok.inj (Prod.mk.inj here).1), ?_⟩
    rw [execute_performed decoded (elsewhere pc), if_neg calls]
    rfl

/-! ### Opposite skips -/

/--
Of two words exactly one skips, wherever one of them is executed.

Only where registers are missing are both refused, and then alike.
-/
def Word.Opposes (first second : Word) : Prop :=
  ∀ registers board,
    (∃ one other, execute first registers board = (.ok one, board) ∧
      execute second registers board = (.ok other, board) ∧
      (one.pc = (registers.pc + 4) % 65536 ∧ other.pc = (registers.pc + 2) % 65536 ∨
        one.pc = (registers.pc + 2) % 65536 ∧ other.pc = (registers.pc + 4) % 65536)) ∨
    registers.v.length ≠ 16 ∧ ∃ fault, execute first registers board = (.error fault, board) ∧
      execute second registers board = (.error fault, board)

/-- Words oppose each other if one skips on the condition on which the other does not. -/
theorem Word.Opposes.of_condition {first second : Word} (one other : Instruction)
    (codes : first.Codes one) (opposite : second.Codes other)
    (condition : Registers → Board → Except Fault Bool)
    (answers : ∀ registers board, registers.v.length = 16 →
      ∃ holds, condition registers board = .ok holds)
    (skips : ∀ registers board, one.perform registers board =
      ((condition registers board).map fun holds => registers.skipIf holds, board))
    (stays : ∀ registers board, other.perform registers board =
      ((condition registers board).map fun holds => registers.skipIf !holds, board)) :
    first.Opposes second := by
  -- Both ask for the same condition, which is there or is not.
  intro registers board
  have skipped := skips registers board
  have stayed := stays registers board
  cases asked : condition registers board with
  | ok holds =>
    rw [asked] at skipped stayed
    refine .inl ⟨_, _, execute_performed (Word.decode_of_codes codes) skipped,
      execute_performed (Word.decode_of_codes opposite) stayed, ?_⟩
    cases holds with
    | true => exact .inl ⟨rfl, rfl⟩
    | false => exact .inr ⟨rfl, rfl⟩
  | error fault =>
    rw [asked] at skipped stayed
    refine .inr ⟨?_, fault, execute_failed (Word.decode_of_codes codes) skipped,
      execute_failed (Word.decode_of_codes opposite) stayed⟩
    intro general
    obtain ⟨holds, answered⟩ := answers registers board general
    rw [asked] at answered
    cases answered

/-- A register equals a byte or differs from it. -/
theorem Word.opposes_byte (x : Nibble) (byte : Byte) :
    (Word.ofByte 0x3 x byte).Opposes (Word.ofByte 0x4 x byte) := by
  -- One skips on equality, the other on its opposite.
  refine .of_condition (.skipIfByte x byte) (.skipUnlessByte x byte) (by simp [Codes])
    (by simp [Codes]) (fun registers _ => (registers.value x).map (· == (byte.val : Int))) ?_ ?_ ?_
  · intro registers board general
    exact ⟨_, congrArg (Except.map _) (Registers.value_of_general general x)⟩
  all_goals
    intro registers board
    simp only [Instruction.perform, Instruction.operation, Instruction.fields, Operation.perform]
    cases registers.value x <;> rfl

/-- Two registers are equal or differ, whatever the last digits of the words are. -/
theorem Word.opposes_register (x y last other : Nibble) :
    (Word.ofNibbles 0x5 x y last).Opposes (Word.ofNibbles 0x9 x y other) := by
  -- Neither word's last digit is looked at.
  refine .of_condition (.skipIfEqual x y) (.skipUnlessEqual x y) (by simp [Codes])
    (by simp [Codes])
    (fun registers _ => do return (← registers.value x) == (← registers.value y)) ?_ ?_ ?_
  · intro registers board general
    simp [Registers.value_of_general general]
  all_goals
    intro registers board
    simp only [Instruction.perform, Instruction.operation, Instruction.fields, Operation.perform]
    cases registers.value x <;> cases registers.value y <;> rfl

/-- A key is held or is not. -/
theorem Word.opposes_key (x : Nibble) :
    (Word.ofByte 0xE x 0x9E).Opposes (Word.ofByte 0xE x 0xA1) := by
  -- The value of a register is cut to a key before it is looked up.
  refine .of_condition (.skipIfKey x) (.skipUnlessKey x) (by simp [Codes]) (by simp [Codes])
    (fun registers board => (registers.value x).map board.keypad.isHeld) ?_ ?_ ?_
  · intro registers board general
    exact ⟨_, congrArg (Except.map _) (Registers.value_of_general general x)⟩
  all_goals
    intro registers board
    simp only [Instruction.perform, Instruction.operation, Instruction.fields, Operation.perform]
    cases registers.value x <;> rfl

/--
The counter follows the rule of the executed word, and nothing else follows the counter.

Executed at another address a word has the same effects, but for its successor and, if it is a
call, for the frame that it saves.
Of two opposite skips exactly one is taken.
-/
theorem counter_follows_rule :
    (∀ word registers board result left, 0 ≤ registers.sp →
      execute word registers board = (.ok result, left) →
      result.pc = word.successor registers board registers.pc ∧
        ∀ pc, execute word (registers.withCounter pc) board =
          (.ok { result with
            pc := word.successor registers board pc
            stack := if word.opclass = 0x2 then result.stack.set result.sp.toNat (pc % 65536)
              else result.stack }, left)) ∧
    (∀ x byte, (Word.ofByte 0x3 x byte).Opposes (Word.ofByte 0x4 x byte)) ∧
    (∀ x y last other, (Word.ofNibbles 0x5 x y last).Opposes (Word.ofNibbles 0x9 x y other)) ∧
    ∀ x, (Word.ofByte 0xE x 0x9E).Opposes (Word.ofByte 0xE x 0xA1) := by
  refine ⟨?_, Word.opposes_byte, Word.opposes_register, Word.opposes_key⟩
  intro word registers board result left low done
  have elsewhere := execute_withCounter low done
  exact ⟨(elsewhere registers.pc).1, fun pc => (elsewhere pc).2⟩

/-- A register file at the last word of the address space. -/
def lastPlace : Registers :=
  { pc := 0xFFFE }

/-- A skip at the end of the address space goes on at its second word, and nowhere else differs. -/
theorem counter_follows_rule_wrapping :
    ∃ result, execute 0x3000 lastPlace emptyBoard = (.ok result, emptyBoard) ∧ result.pc = 2 ∧
      execute 0x3000 (lastPlace.withCounter 0x200) emptyBoard =
        (.ok { result with pc := 0x204 }, emptyBoard) := by
  obtain ⟨next, elsewhere⟩ :=
    counter_follows_rule.1 0x3000 lastPlace emptyBoard _ _ (by decide) rfl
  exact ⟨_, rfl, next, elsewhere 0x200⟩

end Chip8
