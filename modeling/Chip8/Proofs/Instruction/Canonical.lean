import Chip8.Proofs.Instruction.Code

/-!
The digits of a word that no instruction looks at.

Clearing them changes neither the instruction nor anything that executing it does.
-/

namespace Chip8.Word

variable {word : Word} {instruction : Instruction}

/-- The word without the digits that its class leaves unread. -/
def cleared (word : Word) : Word :=
  if word.opclass = 0x5 ∨ word.opclass = 0x9 then .ofNibbles word.opclass word.x word.y 0x0
  else if word.opclass = 0x8 ∧ (word.nibble = 0x6 ∨ word.nibble = 0xE) then
    .ofNibbles 0x8 word.x 0x0 word.nibble
  else word

/-! ### Words and their fields -/

/-- A word is its class and its address. -/
theorem ofAddress_fields {first : Nibble} (same : word.opclass.val = first.val) :
    ofAddress first word.address = word := by
  -- A word is below 65536, so its first digit and the rest say it all.
  apply Fin.ext
  simp only [ofAddress, opclass, address] at same ⊢
  omega

/-- A word is its class, its first register and its byte. -/
theorem ofByte_fields {first : Nibble} {low : Byte} (same : word.opclass.val = first.val)
    (ends : word.byte.val = low.val) : ofByte first word.x low = word := by
  -- Two digits and a byte are put together at the weights they were cut from.
  apply Fin.ext
  simp only [ofByte, opclass, x, byte] at same ends ⊢
  omega

/-- A word is its four digits. -/
theorem ofNibbles_fields {first last : Nibble} (same : word.opclass.val = first.val)
    (ends : word.nibble.val = last.val) : ofNibbles first word.x word.y last = word := by
  -- Four digits are put together at the weights they were cut from.
  apply Fin.ext
  simp only [ofNibbles, opclass, x, y, nibble] at same ends ⊢
  omega

/-- Classes other than five, eight and nine read every digit. -/
theorem cleared_of_class
    (other : word.opclass.val ≠ 5 ∧ word.opclass.val ≠ 8 ∧ word.opclass.val ≠ 9) :
    word.cleared = word := by
  -- None of the conditions for clearing can hold.
  have five : word.opclass ≠ 0x5 := fun same => other.1 (congrArg Fin.val same)
  have eight : word.opclass ≠ 0x8 := fun same => other.2.1 (congrArg Fin.val same)
  have nine : word.opclass ≠ 0x9 := fun same => other.2.2 (congrArg Fin.val same)
  simp only [cleared, five, eight, nine, or_self, false_and, if_false]

/-- Arithmetic other than shifts reads every digit. -/
theorem cleared_of_arithmetic (eight : word.opclass.val = 8)
    (other : word.nibble.val ≠ 0x6 ∧ word.nibble.val ≠ 0xE) : word.cleared = word := by
  -- The class is eight, but the last digit names no shift.
  have first : word.opclass = 0x8 := Fin.ext eight
  have right : word.nibble ≠ 0x6 := fun same => other.1 (congrArg Fin.val same)
  have left : word.nibble ≠ 0xE := fun same => other.2 (congrArg Fin.val same)
  simp [cleared, first, right, left]

/-! ### Words whose digits are not all read -/

/-- A word of class five compares two registers. -/
theorem decode_of_five (five : word.opclass = 0x5) :
    word.decode = some (.skipIfEqual word.x word.y) := by
  -- Decoding branches on the class as a number.
  have first : word.opclass.val = 5 := congrArg Fin.val five
  simp only [decode, first]

/-- A word of class nine compares two registers. -/
theorem decode_of_nine (nine : word.opclass = 0x9) :
    word.decode = some (.skipUnlessEqual word.x word.y) := by
  -- Decoding branches on the class as a number.
  have first : word.opclass.val = 9 := congrArg Fin.val nine
  simp only [decode, first]

/-- A word of class eight that ends with six halves a register. -/
theorem decode_of_right (eight : word.opclass = 0x8) (right : word.nibble = 0x6) :
    word.decode = some (.shiftRight word.x) := by
  -- Decoding branches on the class, and then on the last digit.
  have first : word.opclass.val = 8 := congrArg Fin.val eight
  have last : word.nibble.val = 0x6 := congrArg Fin.val right
  simp only [decode, first, decodeArithmetic, last]

/-- A word of class eight that ends with fourteen doubles a register. -/
theorem decode_of_left (eight : word.opclass = 0x8) (left : word.nibble = 0xE) :
    word.decode = some (.shiftLeft word.x) := by
  -- Decoding branches on the class, and then on the last digit.
  have first : word.opclass.val = 8 := congrArg Fin.val eight
  have last : word.nibble.val = 0xE := congrArg Fin.val left
  simp only [decode, first, decodeArithmetic, last]

/-! ### Codes of decoded words -/

/-- The code of a decoded arithmetic word is the word, but for the second register of a shift. -/
theorem encode_of_decodeArithmetic (eight : word.opclass.val = 8)
    (decoded : word.decodeArithmetic = some instruction) :
    instruction.encode = word.cleared := by
  have first : word.opclass = 0x8 := Fin.ext eight
  unfold decodeArithmetic at decoded
  split at decoded
  case h_7 right =>
    obtain rfl := Option.some.inj decoded
    have last : word.nibble = 0x6 := Fin.ext right
    simp [Instruction.encode, cleared, first, last]
  case h_9 left =>
    obtain rfl := Option.some.inj decoded
    have last : word.nibble = 0xE := Fin.ext left
    simp [Instruction.encode, cleared, first, last]
  case h_10 => cases decoded
  -- The other operations read both registers.
  all_goals
    obtain rfl := Option.some.inj decoded
    rename_i last
    rw [cleared_of_arithmetic eight (by omega)]
    exact ofNibbles_fields eight last

/-- The code of a decoded device word is the word. -/
theorem encode_of_decodeDevice (fifteen : word.opclass.val = 15)
    (decoded : word.decodeDevice = some instruction) : instruction.encode = word := by
  unfold decodeDevice at decoded
  split at decoded
  case h_10 => cases decoded
  -- The low byte is the one by which the operation was chosen.
  all_goals
    obtain rfl := Option.some.inj decoded
    rename_i low
    exact ofByte_fields fifteen low

/-- The code of a decoded word is the word without the digits that are left unread. -/
theorem encode_of_decode (decoded : word.decode = some instruction) :
    instruction.encode = word.cleared := by
  -- One case for each branch of the decoder, those with a last nibble or byte on their own.
  unfold decode at decoded
  split at decoded
  case h_1 zero =>
    rw [cleared_of_class (by omega)]
    split at decoded
    case h_1 same => exact (Option.some.inj decoded) ▸ Fin.ext same.symm
    case h_2 same => exact (Option.some.inj decoded) ▸ Fin.ext same.symm
    case h_3 => exact (Option.some.inj decoded) ▸ ofAddress_fields zero
  case h_6 five =>
    have first : word.opclass = 0x5 := Fin.ext five
    obtain rfl := Option.some.inj decoded
    simp [Instruction.encode, cleared, first]
  case h_9 eight => exact encode_of_decodeArithmetic eight decoded
  case h_10 nine =>
    have first : word.opclass = 0x9 := Fin.ext nine
    obtain rfl := Option.some.inj decoded
    simp [Instruction.encode, cleared, first]
  case h_14 thirteen =>
    obtain rfl := Option.some.inj decoded
    rw [cleared_of_class (by omega)]
    exact ofNibbles_fields thirteen rfl
  case h_15 fourteen =>
    rw [cleared_of_class (by omega)]
    split at decoded
    case h_1 low => exact (Option.some.inj decoded) ▸ ofByte_fields fourteen low
    case h_2 low => exact (Option.some.inj decoded) ▸ ofByte_fields fourteen low
    case h_3 => cases decoded
  case h_16 fifteen =>
    rw [cleared_of_class (by omega)]
    exact encode_of_decodeDevice fifteen decoded
  case h_17 => cases decoded
  -- The other classes have an address, or a register and a byte.
  all_goals
    obtain rfl := Option.some.inj decoded
    rename_i first
    rw [cleared_of_class (by omega)]
    first
    | exact ofAddress_fields first
    | exact ofByte_fields first rfl

/-- A word without an instruction has no digits to clear. -/
theorem cleared_of_invalid (invalid : word.decode = none) : word.cleared = word := by
  -- Each kind of word that is cleared would have an instruction.
  by_cases eight : word.opclass.val = 8
  · refine cleared_of_arithmetic eight ⟨fun right => ?_, fun left => ?_⟩
    · simp [decode_of_right (Fin.ext eight) (Fin.ext right)] at invalid
    · simp [decode_of_left (Fin.ext eight) (Fin.ext left)] at invalid
  · refine cleared_of_class ⟨fun five => ?_, eight, fun nine => ?_⟩
    · simp [decode_of_five (Fin.ext five)] at invalid
    · simp [decode_of_nine (Fin.ext nine)] at invalid

/-! ### Cleared words -/

/-- A word without the digits that are left unread keeps its instruction. -/
theorem decode_cleared (word : Word) : word.cleared.decode = word.decode := by
  by_cases compare : word.opclass = 0x5 ∨ word.opclass = 0x9
  · -- The comparisons do not look at the last digit.
    simp only [cleared, if_pos compare]
    rcases compare with five | nine
    · rw [five, decode_of_five (by simp), decode_of_five five]
      simp
    · rw [nine, decode_of_nine (by simp), decode_of_nine nine]
      simp
  · by_cases shift : word.opclass = 0x8 ∧ (word.nibble = 0x6 ∨ word.nibble = 0xE)
    · -- The shifts do not look at the second register.
      simp only [cleared, if_neg compare, if_pos shift]
      obtain ⟨eight, right | left⟩ := shift
      · rw [right, decode_of_right (by simp) (by simp), decode_of_right eight right]
        simp
      · rw [left, decode_of_left (by simp) (by simp), decode_of_left eight left]
        simp
    · simp only [cleared, if_neg compare, if_neg shift]

/-- Executing a word without the digits that are left unread does the same, whatever it meets. -/
theorem execute_cleared (word : Word) (registers : Registers) (board : Board) :
    execute word.cleared registers board = execute word registers board := by
  -- Only a refusal shows the word itself, and a word without an instruction is not cleared.
  cases decoded : word.decode with
  | none => rw [cleared_of_invalid decoded]
  | some instruction =>
    -- The handler is given other fields, but what it reads of them is the same.
    rw [execute_of_decode decoded, execute_of_decode (decode_cleared word |>.trans decoded)]

end Chip8.Word
