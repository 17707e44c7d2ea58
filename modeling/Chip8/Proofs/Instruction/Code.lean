import Chip8.Execution

/-!
The listing of the instruction set: which digits of a word stand for which instruction.

The decoder follows the listing, and knows no instruction beside it.
So a handler, which is given all fields of its word, reads none but the operands that are listed.
-/

namespace Chip8.Word

/-- A word is the code of an instruction, digit by digit as the instructions are listed. -/
def Codes (word : Word) : Instruction → Prop
  | .clear => word = 0x00E0
  | .ret => word = 0x00EE
  | .sys address => word.opclass = 0x0 ∧ word ≠ 0x00E0 ∧ word ≠ 0x00EE ∧ word.address = address
  | .jump address => word.opclass = 0x1 ∧ word.address = address
  | .call address => word.opclass = 0x2 ∧ word.address = address
  | .skipIfByte x byte => word.opclass = 0x3 ∧ word.x = x ∧ word.byte = byte
  | .skipUnlessByte x byte => word.opclass = 0x4 ∧ word.x = x ∧ word.byte = byte
  | .skipIfEqual x y => word.opclass = 0x5 ∧ word.x = x ∧ word.y = y
  | .loadByte x byte => word.opclass = 0x6 ∧ word.x = x ∧ word.byte = byte
  | .addByte x byte => word.opclass = 0x7 ∧ word.x = x ∧ word.byte = byte
  | .copy x y => word.opclass = 0x8 ∧ word.x = x ∧ word.y = y ∧ word.nibble = 0x0
  | .bitOr x y => word.opclass = 0x8 ∧ word.x = x ∧ word.y = y ∧ word.nibble = 0x1
  | .bitAnd x y => word.opclass = 0x8 ∧ word.x = x ∧ word.y = y ∧ word.nibble = 0x2
  | .bitXor x y => word.opclass = 0x8 ∧ word.x = x ∧ word.y = y ∧ word.nibble = 0x3
  | .add x y => word.opclass = 0x8 ∧ word.x = x ∧ word.y = y ∧ word.nibble = 0x4
  | .sub x y => word.opclass = 0x8 ∧ word.x = x ∧ word.y = y ∧ word.nibble = 0x5
  | .shiftRight x => word.opclass = 0x8 ∧ word.x = x ∧ word.nibble = 0x6
  | .subFrom x y => word.opclass = 0x8 ∧ word.x = x ∧ word.y = y ∧ word.nibble = 0x7
  | .shiftLeft x => word.opclass = 0x8 ∧ word.x = x ∧ word.nibble = 0xE
  | .skipUnlessEqual x y => word.opclass = 0x9 ∧ word.x = x ∧ word.y = y
  | .loadIndex address => word.opclass = 0xA ∧ word.address = address
  | .jumpOffset address => word.opclass = 0xB ∧ word.address = address
  | .random x mask => word.opclass = 0xC ∧ word.x = x ∧ word.byte = mask
  | .draw x y rows => word.opclass = 0xD ∧ word.x = x ∧ word.y = y ∧ word.nibble = rows
  | .skipIfKey x => word.opclass = 0xE ∧ word.x = x ∧ word.byte = 0x9E
  | .skipUnlessKey x => word.opclass = 0xE ∧ word.x = x ∧ word.byte = 0xA1
  | .readDelay x => word.opclass = 0xF ∧ word.x = x ∧ word.byte = 0x07
  | .waitKey x => word.opclass = 0xF ∧ word.x = x ∧ word.byte = 0x0A
  | .setDelay x => word.opclass = 0xF ∧ word.x = x ∧ word.byte = 0x15
  | .setSound x => word.opclass = 0xF ∧ word.x = x ∧ word.byte = 0x18
  | .addIndex x => word.opclass = 0xF ∧ word.x = x ∧ word.byte = 0x1E
  | .loadGlyph x => word.opclass = 0xF ∧ word.x = x ∧ word.byte = 0x29
  | .storeDecimal x => word.opclass = 0xF ∧ word.x = x ∧ word.byte = 0x33
  | .storeRegisters x => word.opclass = 0xF ∧ word.x = x ∧ word.byte = 0x55
  | .loadRegisters x => word.opclass = 0xF ∧ word.x = x ∧ word.byte = 0x65

variable {word : Word} {instruction : Instruction}

/-- A word whose digits are listed for an instruction is decoded to it. -/
theorem decode_of_codes (codes : word.Codes instruction) : word.decode = some instruction := by
  -- The listed digits are those on which the decoder branches.
  cases instruction with
  | clear | ret =>
    obtain rfl : word = _ := codes
    rfl
  | sys address =>
    obtain ⟨top, blank, back, rfl⟩ := codes
    have zero : word.opclass.val = 0x0 := congrArg Fin.val top
    simp only [decode, zero]
    -- The two other words of the class have been told apart by their digits.
    split
    · rename_i same
      exact absurd (Fin.ext same) blank
    · rename_i same
      exact absurd (Fin.ext same) back
    · rfl
  | skipIfByte | skipUnlessByte | skipIfEqual | loadByte | addByte | skipUnlessEqual | random =>
    obtain ⟨top, rfl, rfl⟩ := codes
    simp only [decode, top]
    rfl
  | jump | call | loadIndex | jumpOffset =>
    obtain ⟨top, rfl⟩ := codes
    simp only [decode, top]
    rfl
  | copy | bitOr | bitAnd | bitXor | add | sub | subFrom =>
    obtain ⟨top, rfl, rfl, last⟩ := codes
    simp only [decode, decodeArithmetic, top, last]
    rfl
  | shiftRight | shiftLeft =>
    obtain ⟨top, rfl, last⟩ := codes
    simp only [decode, decodeArithmetic, top, last]
    rfl
  | draw =>
    obtain ⟨top, rfl, rfl, rfl⟩ := codes
    simp only [decode, top]
    rfl
  | skipIfKey | skipUnlessKey =>
    obtain ⟨top, rfl, low⟩ := codes
    simp only [decode, top, low]
    rfl
  | readDelay | waitKey | setDelay | setSound | addIndex | loadGlyph | storeDecimal
  | storeRegisters | loadRegisters =>
    obtain ⟨top, rfl, low⟩ := codes
    simp only [decode, decodeDevice, top, low]
    rfl

/-- An arithmetic word is decoded to an instruction for which its digits are listed. -/
theorem codes_of_decodeArithmetic (eight : word.opclass.val = 0x8)
    (decoded : word.decodeArithmetic = some instruction) : word.Codes instruction := by
  unfold decodeArithmetic at decoded
  split at decoded
  -- The last digit is the one by which the operation was chosen, and shifts name one register.
  case h_7 right => exact (Option.some.inj decoded) ▸ ⟨Fin.ext eight, rfl, Fin.ext right⟩
  case h_9 left => exact (Option.some.inj decoded) ▸ ⟨Fin.ext eight, rfl, Fin.ext left⟩
  case h_10 => cases decoded
  all_goals
    rename_i last
    obtain rfl := Option.some.inj decoded
    exact ⟨Fin.ext eight, rfl, rfl, Fin.ext last⟩

/-- A device word is decoded to an instruction for which its digits are listed. -/
theorem codes_of_decodeDevice (fifteen : word.opclass.val = 0xF)
    (decoded : word.decodeDevice = some instruction) : word.Codes instruction := by
  unfold decodeDevice at decoded
  split at decoded
  case h_10 => cases decoded
  -- The low byte is the one by which the operation was chosen.
  all_goals
    rename_i low
    obtain rfl := Option.some.inj decoded
    exact ⟨Fin.ext fifteen, rfl, Fin.ext low⟩

/-- A word is decoded only to an instruction for which its digits are listed. -/
theorem codes_of_decode (decoded : word.decode = some instruction) : word.Codes instruction := by
  unfold decode at decoded
  split at decoded
  case h_1 zero =>
    -- Two words of the class of host calls have a meaning of their own.
    split at decoded
    case h_1 same => exact (Option.some.inj decoded) ▸ Fin.ext same
    case h_2 same => exact (Option.some.inj decoded) ▸ Fin.ext same
    case h_3 blank back =>
      obtain rfl := Option.some.inj decoded
      exact ⟨Fin.ext zero, fun same => blank (congrArg Fin.val same),
        fun same => back (congrArg Fin.val same), rfl⟩
  case h_9 eight => exact codes_of_decodeArithmetic eight decoded
  case h_15 fourteen =>
    split at decoded
    case h_1 low => exact (Option.some.inj decoded) ▸ ⟨Fin.ext fourteen, rfl, Fin.ext low⟩
    case h_2 low => exact (Option.some.inj decoded) ▸ ⟨Fin.ext fourteen, rfl, Fin.ext low⟩
    case h_3 => cases decoded
  case h_16 fifteen => exact codes_of_decodeDevice fifteen decoded
  case h_17 => cases decoded
  -- The other classes are told by their first digit alone.
  all_goals
    rename_i first
    obtain rfl := Option.some.inj decoded
    exact ⟨Fin.ext first, by simp⟩

/-- An operation does the same with all fields of its word and with the operands alone. -/
theorem perform_of_decode (decoded : word.decode = some instruction) :
    instruction.operation.perform word.fields = instruction.perform := by
  have codes := codes_of_decode decoded
  -- The operands that an instruction is listed with are those fields that its handler reads.
  cases instruction with
  | clear | ret => rfl
  | sys =>
    obtain ⟨-, -, -, rfl⟩ := codes
    rfl
  | jump | call | loadIndex | jumpOffset =>
    obtain ⟨-, rfl⟩ := codes
    rfl
  | skipIfByte | skipUnlessByte | skipIfEqual | loadByte | addByte | skipUnlessEqual | random =>
    obtain ⟨-, rfl, rfl⟩ := codes
    rfl
  | copy | bitOr | bitAnd | bitXor | add | sub | subFrom =>
    obtain ⟨-, rfl, rfl, -⟩ := codes
    rfl
  | draw =>
    obtain ⟨-, rfl, rfl, rfl⟩ := codes
    rfl
  | shiftRight | shiftLeft | skipIfKey | skipUnlessKey | readDelay | waitKey | setDelay | setSound
  | addIndex | loadGlyph | storeDecimal | storeRegisters | loadRegisters =>
    obtain ⟨-, rfl, -⟩ := codes
    rfl

/-- A word that is decoded is executed as its instruction is performed, and takes a cycle. -/
theorem execute_of_decode (decoded : word.decode = some instruction) (registers : Registers)
    (board : Board) :
    execute word registers board =
      ((instruction.perform registers board).1.map Registers.countCycle,
        (instruction.perform registers board).2) := by
  rw [execute, operation?, decoded, Option.map_some, ← perform_of_decode decoded]

/-- A word without an instruction is refused. -/
theorem execute_of_invalid (invalid : word.decode = none) (registers : Registers)
    (board : Board) :
    execute word registers board =
      (.error (.unknownOpcode word (some registers.pc)), board) := by
  rw [execute, operation?, invalid, Option.map_none]

end Chip8.Word
