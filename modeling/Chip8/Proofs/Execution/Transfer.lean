import Chip8.Proofs.Execution.Arithmetic
import Chip8.Proofs.Memory.Store

/-!
Transfers between the general registers and memory.

Registers are stored and loaded in a block at the address register, and the three decimal digits of
a byte are stored there too.
A transfer is made as a whole or not at all, and what was stored can be loaded again.
-/

namespace Chip8

/-- A word stores values in a block at the address register, or changes nothing. -/
structure Word.StoresBlock (word : Word) (registers : Registers) (board : Board) (last : Nat)
    (values : Nat → Int) : Prop where
  /-- The word is executed exactly if the block is writable up to its last byte. -/
  succeeds : (∃ result left, execute word registers board = (.ok result, left)) ↔
    0x200 ≤ registers.i ∧ registers.i + last ≤ 0xFFF
  /-- Then each value is found at its address, and every byte outside the block is kept. -/
  stores : 0x200 ≤ registers.i ∧ registers.i + last ≤ 0xFFF →
    ∃ memory, execute word registers board =
        (.ok registers.advance.countCycle, { board with memory }) ∧
      (∀ offset ≤ last, (memory.byteAt (registers.i.toNat + offset)).val = values offset) ∧
      ∀ address : Nat, ¬(registers.i ≤ address ∧ address ≤ registers.i + last) →
        memory.byteAt address = board.memory.byteAt address
  /-- Otherwise an address is reported, there are no new registers, and no byte has changed. -/
  refused : ¬(0x200 ≤ registers.i ∧ registers.i + last ≤ 0xFFF) →
    ∃ address, execute word registers board = (.error (.outOfBounds .write address), board)

/-- A word loads a block at the address register into the registers up to some last one. -/
structure Word.LoadsBlock (word : Word) (registers : Registers) (board : Board)
    (last : Nibble) : Prop where
  /-- The word is executed exactly if the block lies in memory up to its last byte. -/
  succeeds : (∃ result left, execute word registers board = (.ok result, left)) ↔
    registers.i + last.val ≤ 0xFFF
  /-- Then the registers up to the last hold the bytes, and the others are kept. -/
  loads : registers.i + last.val ≤ 0xFFF →
    ∃ result, execute word registers board = (.ok result, board) ∧
      (∀ y ≤ last, result.reg y = (board.memory.byteAt (registers.i.toNat + y.val)).val) ∧
      (∀ y, last < y → result.reg y = registers.reg y) ∧ result.i = registers.i
  /-- Otherwise an address is reported, and there are no new registers. -/
  refused : ¬registers.i + last.val ≤ 0xFFF →
    ∃ address, execute word registers board = (.error (.outOfBounds .read address), board)

variable {word : Word} {instruction : Instruction} {registers : Registers} {board : Board}

/-- What is done if something fits, and refused otherwise, succeeds exactly if it fits. -/
theorem succeeds_iff {fits : Prop} {outcome : Outcome}
    (done : fits → ∃ result left, outcome = (.ok result, left))
    (refused : ¬fits → ∃ fault left, outcome = (.error fault, left)) :
    (∃ result left, outcome = (.ok result, left)) ↔ fits := by
  constructor
  · intro succeeded
    by_cases inside : fits
    · exact inside
    · -- An outcome cannot be both a result and a fault.
      obtain ⟨result, left, same⟩ := succeeded
      obtain ⟨fault, other, failed⟩ := refused inside
      rw [same] at failed
      cases failed
  · exact done

/-- A block is writable exactly if its first and its last byte are. -/
theorem writable_iff (place : Int) (last : Nat) :
    (∀ address, place ≤ address ∧ address < place + (last + 1 : Nat) →
      Access.write.Permits address) ↔ 0x200 ≤ place ∧ place + last ≤ 0xFFF := by
  rw [MemoryUse.permits_run]
  simp only [Access.Permits]
  omega

/-- A block from an address above is readable exactly if its last byte is. -/
theorem readable_iff {place : Int} (low : 0 ≤ place) (last : Nat) :
    (∀ address, place ≤ address ∧ address < place + (last + 1 : Nat) →
      Access.read.Permits address) ↔ place + last ≤ 0xFFF := by
  rw [MemoryUse.permits_run]
  simp only [Access.Permits]
  omega

/-! ### Stored blocks -/

/-- Values that are bytes are found where they were put, and no other byte has changed. -/
theorem Memory.putAll_bytes (memory : Memory) {place : Int} {values : List Int} {last : Nat}
    (count : values.length = last + 1) (bytes : ∀ value ∈ values, 0 ≤ value ∧ value ≤ 0xFF)
    (fits : 0x200 ≤ place ∧ place + last ≤ 0xFFF) :
    (∀ offset ≤ last, ((memory.putAll place.toNat (values.map .ofInt)).byteAt
        (place.toNat + offset)).val = values.getD offset 0) ∧
      ∀ address : Nat, ¬(place ≤ address ∧ address ≤ place + last) →
        (memory.putAll place.toNat (values.map .ofInt)).byteAt address =
          memory.byteAt address := by
  have length : (values.map Byte.ofInt).length = last + 1 := by rw [List.length_map, count]
  have low : programStart ≤ place.toNat := by rw [programStart]; omega
  have high : place.toNat + (values.map Byte.ofInt).length ≤ memorySize := by
    rw [memorySize, length]
    omega
  constructor
  · intro offset near
    -- The place in the block is the distance from its first address.
    have inside : place.toNat ≤ place.toNat + offset ∧
        place.toNat + offset < place.toNat + (values.map Byte.ofInt).length := by omega
    have listed : offset < values.length := by omega
    have byte := Byte.ofInt_val (bytes values[offset] (List.getElem_mem listed))
    have range := bytes values[offset] (List.getElem_mem listed)
    rw [byteAt_putAll memory low high, if_pos inside, Nat.add_sub_cancel_left]
    simp only [List.getD_eq_getElem?_getD, List.getElem?_map, List.getElem?_eq_getElem listed,
      Option.map_some, Option.getD_some, byte]
    omega
  · intro address outside
    rw [byteAt_putAll memory low high, if_neg (by omega)]

/-- A block that is writable is stored. -/
theorem storeBlock_fits {values : List Int} {last : Nat} (board : Board) (registers : Registers)
    (count : values.length = last + 1)
    (fits : 0x200 ≤ registers.i ∧ registers.i + last ≤ 0xFFF) :
    board.storeBlock registers values = (.ok registers.advance, { board with
      memory := board.memory.putAll registers.i.toNat (values.map .ofInt) }) := by
  -- Both ends are writable, and with them all that lies in between.
  have window := (writable_iff registers.i last).mpr fits
  rw [← count] at window
  rw [Board.storeBlock, Memory.writeBlock_permitted board.memory registers.i values window]
  rfl

/-- Any other block is not stored, and changes nothing. -/
theorem storeBlock_outside {values : List Int} {last : Nat} (board : Board)
    (registers : Registers) (count : values.length = last + 1)
    (outside : ¬(0x200 ≤ registers.i ∧ registers.i + last ≤ 0xFFF)) :
    ∃ address, board.storeBlock registers values =
      (.error (.outOfBounds .write address), board) := by
  -- The block is refused by memory, which it leaves as it is.
  have window := mt (writable_iff registers.i last).mp outside
  rw [← count] at window
  obtain ⟨address, -, -, failed⟩ :=
    Memory.writeBlock_outside board.memory registers.i values window
  refine ⟨address, ?_⟩
  rw [Board.storeBlock, failed]
  rfl

/-- A word stores a block of bytes if its instruction does. -/
theorem Word.StoresBlock.of_perform {values : List Int} {last : Nat}
    (codes : word.Codes instruction)
    (performed : instruction.perform registers board = board.storeBlock registers values)
    (count : values.length = last + 1)
    (bytes : ∀ value ∈ values, 0 ≤ value ∧ value ≤ 0xFF) :
    word.StoresBlock registers board last (fun offset => values.getD offset 0) := by
  have decoded := Word.decode_of_codes codes
  -- Either memory takes the whole block, or the board is handed back.
  have stores (fits : 0x200 ≤ registers.i ∧ registers.i + last ≤ 0xFFF) :=
    execute_performed decoded (performed.trans (storeBlock_fits board registers count fits))
  have refused (outside : ¬(0x200 ≤ registers.i ∧ registers.i + last ≤ 0xFFF)) :
      ∃ address, execute word registers board =
        (.error (.outOfBounds .write address), board) := by
    obtain ⟨address, failed⟩ := storeBlock_outside board registers count outside
    exact ⟨address, execute_failed decoded (performed.trans failed)⟩
  refine ⟨succeeds_iff ?_ ?_, ?_, refused⟩
  · intro fits
    exact ⟨_, _, stores fits⟩
  · intro outside
    obtain ⟨address, failed⟩ := refused outside
    exact ⟨_, _, failed⟩
  · intro fits
    exact ⟨_, stores fits, board.memory.putAll_bytes count bytes fits⟩

/-! ### Loaded blocks -/

/-- Bytes that are written to numbered registers are found there, and the others are kept. -/
theorem writeAll_numbered (bytes : List Byte) (v : List Int) (first : Nat)
    (room : first + bytes.length ≤ v.length) (place : Nat) :
    (Registers.writeAll v ((bytes.zipIdx first).map fun ((byte, place) : Byte × Nat) =>
        ((place : Int), (byte.val : Int)))).getD place 0 =
      if first ≤ place ∧ place < first + bytes.length then
        ((bytes.getD (place - first) 0).val : Int) else v.getD place 0 := by
  -- The first byte is written before the rest, which begins one register later.
  induction bytes generalizing v first with
  | nil =>
    rw [if_neg (by rw [List.length_nil]; omega)]
    rfl
  | cons byte rest ih =>
    rw [List.length_cons] at room
    have later := ih (v.set first (byte.val % 256)) (first + 1)
      (by rw [List.length_set]; omega)
    rw [List.zipIdx_cons, List.map_cons, Registers.writeAll, Int.toNat_natCast, later,
      List.length_cons]
    by_cases here : place = first
    · -- The first register lies before the rest, and a byte is not cut.
      subst here
      have inside : place < v.length := by omega
      rw [if_neg (by omega), if_pos (by omega), Nat.sub_self, List.getD_cons_zero,
        List.getD_eq_getElem?_getD, List.getElem?_set_self inside, Option.getD_some]
      omega
    · by_cases behind : first + 1 ≤ place ∧ place < first + 1 + rest.length
      · -- A place in the rest is one place further on in the whole block.
        have further : place - first = place - (first + 1) + 1 := by omega
        rw [if_pos behind, if_pos (by omega), further, List.getD_cons_succ]
      · have apart : first ≠ place := fun same => here same.symm
        rw [if_neg behind, if_neg (by omega), List.getD_eq_getElem?_getD, List.getElem?_set_ne
          apart, ← List.getD_eq_getElem?_getD]

/-- A block that lies in memory is read as the bytes at its addresses. -/
theorem Memory.readBlock_fits (memory : Memory) {place : Int} {last : Nat} (low : 0 ≤ place)
    (fits : place + last ≤ 0xFFF) :
    ∃ bytes : List Byte, memory.readBlock place (last + 1 : Nat) = .ok bytes ∧
      bytes.length = last + 1 ∧
      ∀ offset ≤ last, bytes.getD offset 0 = memory.byteAt (place.toNat + offset) := by
  -- The bytes are a slice of memory from the first address on.
  have window := (readable_iff low last).mpr fits
  have read := memory.readBlock_permitted place (last + 1 : Nat) window
  have count : (place + (last + 1 : Nat)).toNat - place.toNat = last + 1 := by omega
  refine ⟨_, read, ?_, ?_⟩
  · rw [slice_length, count]
  · intro offset near
    have listed : offset < last + 1 := by omega
    rw [slice, count]
    simp [List.getD_eq_getElem?_getD, listed]

/-- Sixteen registers take a block that lies in memory. -/
theorem loadBlock_fits (general : registers.v.length = 16) (low : 0 ≤ registers.i)
    (board : Board) {last : Nibble} (fits : registers.i + last.val ≤ 0xFFF) :
    ∃ result, board.loadBlock registers (last.val + 1) = .ok result ∧
      (∀ y ≤ last, result.reg y = (board.memory.byteAt (registers.i.toNat + y.val)).val) ∧
      (∀ y, last < y → result.reg y = registers.reg y) ∧ result.i = registers.i := by
  obtain ⟨bytes, read, count, found⟩ := board.memory.readBlock_fits low fits
  -- No more than sixteen bytes are written, each to the register of its place.
  have written := Operation.loadBlock_of_general general (by omega) read
  have reg (y : Nibble) := writeAll_numbered bytes registers.v 0 (by omega) y.val
  refine ⟨_, written, ?_, ?_, rfl⟩
  · intro y near
    have below : y.val ≤ last.val := near
    refine (reg y).trans ?_
    rw [if_pos (by omega), Nat.sub_zero, found y.val below]
  · intro y far
    have above : last.val < y.val := far
    exact (reg y).trans (if_neg (by omega))

/-- Any other block is not loaded. -/
theorem loadBlock_outside (low : 0 ≤ registers.i) (board : Board) {last : Nibble}
    (outside : ¬registers.i + last.val ≤ 0xFFF) :
    ∃ address, board.loadBlock registers (last.val + 1) =
      .error (.outOfBounds .read address) := by
  -- The block is refused by memory before any register is written.
  have window := mt (readable_iff low last.val).mp outside
  obtain ⟨address, -, -, failed⟩ :=
    board.memory.readBlock_outside registers.i (last.val + 1 : Nat) window
  refine ⟨address, ?_⟩
  rw [Board.loadBlock, failed, error_bind]

/-- A word loads a block if its instruction does. -/
theorem Word.LoadsBlock.of_perform (general : registers.v.length = 16) (low : 0 ≤ registers.i)
    {last : Nibble} (codes : word.Codes (.loadRegisters last)) :
    word.LoadsBlock registers board last := by
  have decoded := Word.decode_of_codes codes
  have loads (fits : registers.i + last.val ≤ 0xFFF) :
      ∃ result, execute word registers board = (.ok result, board) ∧
        (∀ y ≤ last, result.reg y = (board.memory.byteAt (registers.i.toNat + y.val)).val) ∧
        (∀ y, last < y → result.reg y = registers.reg y) ∧ result.i = registers.i := by
    obtain ⟨result, loaded, found, kept, index⟩ := loadBlock_fits general low board fits
    have performed : (Instruction.loadRegisters last).perform registers board =
        (.ok result, board) := congrArg (·, board) loaded
    -- Counting the cycle touches no register.
    exact ⟨result.countCycle, execute_performed decoded performed, found, kept, index⟩
  have refused (outside : ¬registers.i + last.val ≤ 0xFFF) :
      ∃ address, execute word registers board =
        (.error (.outOfBounds .read address), board) := by
    obtain ⟨address, failed⟩ := loadBlock_outside low board outside
    have performed : (Instruction.loadRegisters last).perform registers board =
        (.error (.outOfBounds .read address), board) := congrArg (·, board) failed
    exact ⟨address, execute_failed decoded performed⟩
  refine ⟨succeeds_iff ?_ ?_, loads, refused⟩
  · intro fits
    obtain ⟨result, done, -⟩ := loads fits
    exact ⟨_, _, done⟩
  · intro outside
    obtain ⟨address, failed⟩ := refused outside
    exact ⟨_, _, failed⟩

/-! ### The words of the transfers -/

/-- Only the values that belong to the block matter. -/
theorem Word.StoresBlock.congr {last : Nat} {values others : Nat → Int}
    (stores : word.StoresBlock registers board last values)
    (same : ∀ offset ≤ last, values offset = others offset) :
    word.StoresBlock registers board last others where
  succeeds := stores.succeeds
  stores fits := by
    obtain ⟨memory, done, found, kept⟩ := stores.stores fits
    refine ⟨memory, done, ?_, kept⟩
    -- Only the values up to the last register are stored.
    intro offset near
    rw [found offset near, same offset near]
  refused := stores.refused

/-- The word that stores the registers up to some last one. -/
theorem storesRegisters (general : registers.v.length = 16)
    (bytes : ∀ value ∈ registers.v, 0 ≤ value ∧ value ≤ 0xFF) (x : Nibble) (board : Board) :
    (Word.ofByte 0xF x 0x55).StoresBlock registers board x.val
      (fun offset => registers.v.getD offset 0) := by
  have codes : (Word.ofByte 0xF x 0x55).Codes (.storeRegisters x) := by simp [Word.Codes]
  -- One register more is stored than the number of the last one says.
  have count : (registers.v.take (x.val + 1)).length = x.val + 1 := by
    rw [List.length_take, general]
    omega
  have taken : ∀ value ∈ registers.v.take (x.val + 1), 0 ≤ value ∧ value ≤ 0xFF := by
    intro value listed
    exact bytes value (List.mem_of_mem_take listed)
  have performed : (Instruction.storeRegisters x).perform registers board =
      board.storeBlock registers (registers.v.take (x.val + 1)) := rfl
  refine (Word.StoresBlock.of_perform codes performed count taken).congr ?_
  intro offset near
  have inside : offset < x.val + 1 := by omega
  rw [List.getD_eq_getElem?_getD, List.getElem?_take_of_lt inside, ← List.getD_eq_getElem?_getD]

/-- The word that stores the three decimal digits of a register. -/
theorem storesDecimal (general : registers.v.length = 16)
    (bytes : ∀ value ∈ registers.v, 0 ≤ value ∧ value ≤ 0xFF) (x : Nibble) (board : Board) :
    (Word.ofByte 0xF x 0x33).StoresBlock registers board 2
      (fun offset => (decimalDigits (registers.reg x)).getD offset 0) := by
  have codes : (Word.ofByte 0xF x 0x33).Codes (.storeDecimal x) := by simp [Word.Codes]
  obtain ⟨low, high⟩ := Registers.range_of_general general bytes x
  have performed : (Instruction.storeDecimal x).perform registers board =
      board.storeBlock registers (decimalDigits (registers.reg x)) := by
    simp only [Instruction.perform, Instruction.operation, Instruction.fields, Operation.perform,
      Registers.value_of_general general x]
  refine .of_perform codes performed rfl ?_
  -- A digit of a byte is a byte itself.
  intro digit listed
  simp only [decimalDigits, List.mem_cons, List.not_mem_nil, or_false] at listed
  omega

/-- The digits of a byte are its decimal digits. -/
theorem decimalDigits_of_byte {value : Int} (range : 0 ≤ value ∧ value ≤ 0xFF) :
    ∃ hundreds tens ones : Int, decimalDigits value = [hundreds, tens, ones] ∧
      (0 ≤ hundreds ∧ hundreds ≤ 9) ∧ (0 ≤ tens ∧ tens ≤ 9) ∧ (0 ≤ ones ∧ ones ≤ 9) ∧
      100 * hundreds + 10 * tens + ones = value := by
  refine ⟨value / 100, value / 10 % 10, value % 10, rfl, ?_⟩
  omega

/--
Block transfers and decimal digits.

Registers are stored exactly where the whole block is writable, loaded exactly where it lies in
memory, and the three digits of a register are stored exactly where three bytes are writable.
A transfer that does not fit changes no byte and answers with no registers, and one that is made
changes no byte outside its block.
Whatever registers were stored, the same word of loading gives them back on any sixteen registers
with the same address, and keeps the registers behind them.
-/
theorem transfers_round_trip (general : registers.v.length = 16)
    (bytes : ∀ value ∈ registers.v, 0 ≤ value ∧ value ≤ 0xFF)
    (index : 0 ≤ registers.i ∧ registers.i ≤ 0xFFFF) (x : Nibble) (board : Board) :
    (Word.ofByte 0xF x 0x55).StoresBlock registers board x.val
        (fun offset => registers.v.getD offset 0) ∧
      (Word.ofByte 0xF x 0x65).LoadsBlock registers board x ∧
      (∃ hundreds tens ones : Int,
        ((0 ≤ hundreds ∧ hundreds ≤ 9) ∧ (0 ≤ tens ∧ tens ≤ 9) ∧ (0 ≤ ones ∧ ones ≤ 9) ∧
          100 * hundreds + 10 * tens + ones = registers.reg x) ∧
        (Word.ofByte 0xF x 0x33).StoresBlock registers board 2
          (fun offset => [hundreds, tens, ones].getD offset 0)) ∧
      ∀ result left, execute (.ofByte 0xF x 0x55) registers board = (.ok result, left) →
        ∀ (other : Registers) (later : Board), other.v.length = 16 → other.i = registers.i →
          later.memory = left.memory →
          ∃ loaded, execute (.ofByte 0xF x 0x65) other later = (.ok loaded, later) ∧
            (∀ y ≤ x, loaded.reg y = registers.reg y) ∧
            (∀ y, x < y → loaded.reg y = other.reg y) ∧ loaded.i = other.i := by
  have stores := storesRegisters general bytes x board
  have codes : (Word.ofByte 0xF x 0x65).Codes (.loadRegisters x) := by simp [Word.Codes]
  refine ⟨stores, .of_perform general index.1 codes, ?_, ?_⟩
  · have range := Registers.range_of_general general bytes x
    obtain ⟨hundreds, tens, ones, digits, decimal⟩ := decimalDigits_of_byte range
    refine ⟨hundreds, tens, ones, decimal, ?_⟩
    rw [← digits]
    exact storesDecimal general bytes x board
  · intro result left done other later sixteen address memory
    -- What was stored lies in memory, so it can be loaded from there.
    have fits := stores.succeeds.mp ⟨result, left, done⟩
    obtain ⟨stored, again, found, -⟩ := stores.stores fits
    rw [done] at again
    obtain ⟨-, rfl⟩ := Prod.mk.inj again
    have loads : (Word.ofByte 0xF x 0x65).LoadsBlock other later x :=
      .of_perform sixteen (by rw [address]; exact index.1) codes
    obtain ⟨loaded, gave, read, kept, same⟩ := loads.loads (by rw [address]; exact fits.2)
    refine ⟨loaded, gave, ?_, kept, same⟩
    intro y near
    rw [read y near, memory, address]
    exact found y.val near

/-- A register file whose address register points to the last two bytes of memory. -/
def brimming : Registers :=
  { v := [1, 234, 5] ++ List.replicate 13 0, i := 0xFFE }

/-- Two registers fit there and come back alone, but three digits do not fit. -/
theorem transfers_round_trip_brimming :
    ∃ result left, execute (.ofByte 0xF 1 0x55) brimming emptyBoard = (.ok result, left) ∧
      (∃ loaded, execute (.ofByte 0xF 1 0x65) { i := 0xFFE } left = (.ok loaded, left) ∧
        loaded.reg 0 = 1 ∧ loaded.reg 1 = 234 ∧ loaded.reg 2 = 0) ∧
      ∃ address, execute (.ofByte 0xF 1 0x33) brimming emptyBoard =
        (.error (.outOfBounds .write address), emptyBoard) := by
  -- From 0xFFE on there is room for two bytes, but not for three digits.
  obtain ⟨stores, -, ⟨_, _, _, -, digits⟩, back⟩ :=
    @transfers_round_trip brimming rfl (by decide) (by decide) 1 emptyBoard
  obtain ⟨result, left, done⟩ := stores.succeeds.mpr (by decide)
  refine ⟨result, left, done, ?_, digits.refused (by decide)⟩
  obtain ⟨loaded, gave, given, kept, -⟩ := back result left done { i := 0xFFE } left rfl rfl rfl
  refine ⟨loaded, gave, ?_, ?_, ?_⟩
  · exact given 0 (by decide)
  · exact given 1 (by decide)
  · exact kept 2 (by decide)

end Chip8
