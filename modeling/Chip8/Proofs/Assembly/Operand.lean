import Chip8.Assembly.Encoding
import Chip8.Proofs.Assembly.Line
import Chip8.Proofs.Text.Numeral

/-! Printed operands are plain, and are read as the values they were printed from. -/

namespace Chip8

/-- A text with characters, all of which are plain. -/
theorem IsPlainText.of_all {text : List Char} (filled : text.isEmpty = false)
    (plain : text.all isPlain = true) : IsPlainText text :=
  ⟨List.isEmpty_eq_false_iff.mp filled, List.all_eq_true.mp plain⟩

/-! ### Registers -/

/-- A printed register is a plain text in upper case, and names the register. -/
theorem registerText_table (x : Nibble) :
    (registerText x).all isPlain = true ∧ upperText (registerText x) = registerText x ∧
      Operand.register? (registerText x) = some x := by
  -- There are sixteen registers to print.
  have table : ∀ x : Nibble, (registerText x).all isPlain = true ∧
      upperText (registerText x) = registerText x ∧
        Operand.register? (registerText x) = some x := by decide
  exact table x

/-- A printed register is plain. -/
theorem plain_registerText (x : Nibble) : IsPlainText (registerText x) :=
  .of_all rfl (registerText_table x).1

/-- A printed register is upper case. -/
@[simp]
theorem upperText_registerText (x : Nibble) : upperText (registerText x) = registerText x :=
  (registerText_table x).2.1

/-- A printed register names the register. -/
@[simp]
theorem register?_registerText (x : Nibble) : Operand.register? (registerText x) = some x :=
  (registerText_table x).2.2

/-- Only its own text names a register. -/
theorem register?_eq_some {operand : List Char} {x : Nibble} :
    Operand.register? operand = some x ↔ operand = registerText x := by
  -- The digit of a register is one of sixteen characters.
  have decimal : ∀ number : Fin 58, 48 ≤ number.val →
      ['V', Char.ofNat number.val] = registerText (Nibble.ofInt (number.val - 48)) := by decide
  have letter : ∀ number : Fin 71, 65 ≤ number.val →
      ['V', Char.ofNat number.val] = registerText (Nibble.ofInt (number.val - 55)) := by decide
  constructor
  · intro named
    unfold Operand.register? at named
    split at named
    case h_2 => cases named
    -- The reader has a range of digits and one of letters, and takes no other character.
    case h_1 digit =>
      split at named
      case isTrue range =>
        cases named
        have least : 48 ≤ digit.toNat := range.1
        have most : digit.toNat < 58 := Nat.lt_succ_of_le range.2
        simpa using decimal ⟨digit.toNat, most⟩ least
      case isFalse =>
        split at named
        case isFalse => cases named
        case isTrue range =>
          cases named
          have least : 65 ≤ digit.toNat := range.1
          have most : digit.toNat < 71 := Nat.lt_succ_of_le range.2
          simpa using letter ⟨digit.toNat, most⟩ least
  · intro same
    rw [same]
    exact register?_registerText x

/-- A printed register is read where a register is expected. -/
@[simp]
theorem register_registerText (x : Nibble) : Operand.register (registerText x) = .ok x := by
  simp [Operand.register]

/-- A printed register is no text that begins with another letter. -/
@[simp]
theorem registerText_ne {x : Nibble} {first : Char} {rest : List Char} (other : first ≠ 'V') :
    registerText x ≠ first :: rest :=
  fun same => other (List.cons.inj same).1.symm

/-! ### Numbers -/

/-- A hexadecimal number behind its mark, as it is printed. -/
def markedText (width value : Nat) : List Char :=
  "0x".toList ++ hexDigits width value

/-- A hexadecimal number behind its mark, as it is read. -/
def markedUpper (width value : Nat) : List Char :=
  '0' :: 'X' :: hexDigits width value

/-- A printed number is plain. -/
theorem plain_markedText (width value : Nat) : IsPlainText (markedText width value) where
  filled := by simp [markedText]
  plain char member := by
    -- Both characters of the mark are plain, and so are the sixteen digits.
    have alphabet : ∀ digit : Fin 16, isPlain (hexDigit digit) = true := by decide
    have mark : "0x".toList.all isPlain = true := by decide
    rw [markedText, List.mem_append] at member
    rcases member with first | later
    · exact List.all_eq_true.mp mark char first
    · obtain ⟨digit, small, rfl⟩ := mem_hexFixed later
      exact alphabet ⟨digit, small⟩

/-- A printed number is read with its mark in upper case. -/
@[simp]
theorem upperText_markedText (width value : Nat) :
    upperText (markedText width value) = markedUpper width value := by
  -- Only the mark is in lower case.
  have mark : upperText "0x".toList = ['0', 'X'] := by decide
  rw [markedText, upperText_append, mark, hexDigits, upperText_hexFixed]
  rfl

/-- A printed number names no register. -/
@[simp]
theorem register?_markedUpper (width value : Nat) :
    Operand.register? (markedUpper width value) = none := by
  -- A register is named by a letter.
  simp [markedUpper, Operand.register?]

/-- A printed number is no text that begins with another character. -/
@[simp]
theorem markedUpper_ne {width value : Nat} {first : Char} {rest : List Char} (other : first ≠ '0') :
    markedUpper width value ≠ first :: rest :=
  fun same => other (List.cons.inj same).1.symm

/-- A printed number is read as its value. -/
theorem number?_markedUpper (width value : Nat) :
    Operand.number? (markedUpper width value) = some (value : Int) := by
  -- The mark sends the digits behind it to the reader of hexadecimal text.
  simp [markedUpper, Operand.number?, markedNumeral?_hexDigits]

/-- A number that is read and fits its field is the value of the operand. -/
theorem value_of_number? (labels : Labels) {operand : List Char} {bits : Nat}
    {value : Fin (1 <<< bits)} (read : Operand.number? operand = some (value.val : Int)) :
    Operand.value labels operand bits = .ok value := by
  -- No label is looked up for a number, and a value of the field needs no cutting.
  have number : Operand.integer labels operand = .ok (value.val : Int) := by
    simp [Operand.integer, read]
  simp [Operand.value, number, Bind.bind, Except.bind, pure, Except.pure]

/-- A printed address is read as the address. -/
@[simp]
theorem address_markedUpper (labels : Labels) (width : Nat) (value : Address) :
    Operand.address labels (markedUpper width value.val) = .ok value :=
  value_of_number? labels (number?_markedUpper width value.val)

/-- A printed byte is read as the byte. -/
@[simp]
theorem byte_markedUpper (labels : Labels) (width : Nat) (value : Byte) :
    Operand.byte labels (markedUpper width value.val) = .ok value :=
  value_of_number? labels (number?_markedUpper width value.val)

/-- A printed word is read as the word. -/
@[simp]
theorem word_markedUpper (labels : Labels) (width : Nat) (value : Word) :
    Operand.value labels (markedUpper width value.val) 16 = .ok value :=
  value_of_number? labels (number?_markedUpper width value.val)

/-! ### Rows -/

/-- A printed number of rows is a plain text in upper case, and is read as the number. -/
theorem rowsText_table (rows : Nibble) :
    (Nat.toDigits 10 rows.val).isEmpty = false ∧
      (Nat.toDigits 10 rows.val).all isPlain = true ∧
        upperText (Nat.toDigits 10 rows.val) = Nat.toDigits 10 rows.val ∧
          Operand.number? (Nat.toDigits 10 rows.val) = some (rows.val : Int) := by
  -- There are sixteen numbers of rows to print.
  have table : ∀ rows : Nibble, (Nat.toDigits 10 rows.val).isEmpty = false ∧
      (Nat.toDigits 10 rows.val).all isPlain = true ∧
        upperText (Nat.toDigits 10 rows.val) = Nat.toDigits 10 rows.val ∧
          Operand.number? (Nat.toDigits 10 rows.val) = some (rows.val : Int) := by decide
  exact table rows

/-- A printed number of rows is read as the number. -/
@[simp]
theorem value_rowsText (labels : Labels) (rows : Nibble) :
    Operand.value labels (Nat.toDigits 10 rows.val) 4 = .ok rows :=
  value_of_number? labels (rowsText_table rows).2.2.2

end Chip8
