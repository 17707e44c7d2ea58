import Chip8.Hex
import Chip8.Proofs.Text.Blank
import Chip8.Text.Numeral
import Chip8.Text.Uppercase

/-! Hexadecimal text reads back as the number it was written from, and is as wide as asked for. -/

namespace Chip8

/-! ### Digits -/

/-- A written digit has the value that it was written from, is no separator, and is upper case. -/
theorem hexDigit_alphabet {value : Nat} (small : value < 16) :
    digitValue? 16 (hexDigit value) = some value ∧ hexDigit value ≠ '_' ∧
      upperChar (hexDigit value) = [hexDigit value] := by
  -- There are sixteen digits to read.
  have table : ∀ digit : Fin 16, digitValue? 16 (hexDigit digit) = some digit.val ∧
      hexDigit digit ≠ '_' ∧ upperChar (hexDigit digit) = [hexDigit digit] := by decide
  exact table ⟨value, small⟩

/-- Every character of a hexadecimal text is a digit of a value below sixteen. -/
theorem mem_hexFixed {width value : Nat} {char : Char} (member : char ∈ hexFixed width value) :
    ∃ digit, digit < 16 ∧ char = hexDigit digit := by
  -- The last digit is a remainder, and the others are those of a shorter text.
  induction width generalizing value with
  | zero => simp [hexFixed] at member
  | succ width ih =>
    rw [hexFixed, List.mem_append, List.mem_singleton] at member
    rcases member with earlier | last
    · exact ih earlier
    · exact ⟨value % 16, Nat.mod_lt _ (by decide), last⟩

/-- Hexadecimal text has no separator in it. -/
theorem underscore_not_mem_hexFixed (width value : Nat) : '_' ∉ hexFixed width value := by
  -- Each character is a digit of the alphabet.
  intro member
  obtain ⟨digit, small, same⟩ := mem_hexFixed member
  exact (hexDigit_alphabet small).2.1 same.symm

/-- Hexadecimal text has no blank in it. -/
theorem hexFixed_visible {width value : Nat} {char : Char} (member : char ∈ hexFixed width value) :
    isBlank char = false := by
  -- None of the sixteen digits is blank.
  have table : ∀ digit : Fin 16, isBlank (hexDigit digit) = false := by decide
  obtain ⟨digit, small, rfl⟩ := mem_hexFixed member
  exact table ⟨digit, small⟩

/-- Hexadecimal text is upper case. -/
theorem upperText_hexFixed (width value : Nat) :
    upperText (hexFixed width value) = hexFixed width value := by
  -- The digits are turned to upper case one by one.
  induction width generalizing value with
  | zero => rfl
  | succ width ih =>
    have last : upperText [hexDigit (value % 16)] = [hexDigit (value % 16)] := by
      simpa [upperText] using (hexDigit_alphabet (Nat.mod_lt value (by decide))).2.2
    rw [hexFixed, upperText_append, ih, last]

/-! ### Numbers -/

/-- The digits of a hexadecimal text stand for its value, as far as the width allows. -/
theorem mapM_hexFixed (width value : Nat) :
    ∃ digits, (hexFixed width value).mapM (digitValue? 16) = some digits ∧
      ofDigits 16 digits = value % Nat.pow 16 width := by
  -- One digit more than the text of the quotient is the remainder.
  induction width generalizing value with
  | zero => exact ⟨[], rfl, (Nat.mod_one value).symm⟩
  | succ width ih =>
    obtain ⟨digits, read, sum⟩ := ih (value / 16)
    have last := (hexDigit_alphabet (Nat.mod_lt value (show 0 < 16 by decide))).1
    refine ⟨digits ++ [value % 16], ?_, ?_⟩
    · simp [hexFixed, List.mapM_append, read, last]
    · have step : ofDigits 16 (digits ++ [value % 16]) = 16 * ofDigits 16 digits + value % 16 := by
        simp [ofDigits]
      have power : Nat.pow 16 (width + 1) = 16 * Nat.pow 16 width := Nat.pow_succ'
      rw [step, sum, power, Nat.mod_mul]
      omega

/-- A text that is not empty and has no separator is read digit by digit. -/
theorem numeral?_of_mapM {base : Nat} {text : List Char} {digits : List Nat} (filled : text ≠ [])
    (whole : '_' ∉ text) (read : text.mapM (digitValue? base) = some digits) :
    numeral? base text = some (ofDigits base digits) := by
  -- Without a separator there is one group of digits, and it is not empty.
  have group : text.isEmpty = false := List.isEmpty_eq_false_iff.mpr filled
  simp [numeral?, digits?, splitAt_of_not_mem whole, group, read]

/-- A value needs no more hexadecimal digits than its width says. -/
theorem lt_pow_hexWidth (value : Nat) : value < Nat.pow 16 (hexWidth value) := by
  -- Four binary digits are one hexadecimal digit.
  have binary : value < 2 ^ (value.log2 + 1) := Nat.lt_log2_self
  have wider : value.log2 + 1 ≤ 4 * hexWidth value := by
    unfold hexWidth
    omega
  calc
    value < 2 ^ (value.log2 + 1) := binary
    _ ≤ 2 ^ (4 * hexWidth value) := Nat.pow_le_pow_right (by decide) wider
    _ = Nat.pow 16 (hexWidth value) := Nat.pow_mul 2 4 (hexWidth value)

/-- Hexadecimal text is wide enough for the whole value. -/
theorem lt_pow_width (width value : Nat) : value < Nat.pow 16 (max width (hexWidth value)) :=
  Nat.lt_of_lt_of_le (lt_pow_hexWidth value)
    (Nat.pow_le_pow_right (by decide) (Nat.le_max_right ..))

/-- Hexadecimal text reads back as its value. -/
theorem numeral?_hexDigits (width value : Nat) :
    numeral? 16 (hexDigits width value) = some value := by
  -- The width is the larger of the one asked for and the one needed, so no digit is lost.
  obtain ⟨digits, read, sum⟩ := mapM_hexFixed (max width (hexWidth value)) value
  have filled : hexFixed (max width (hexWidth value)) value ≠ [] := by
    refine List.ne_nil_of_length_pos ?_
    rw [hexFixed_length, hexWidth]
    omega
  rw [hexDigits, numeral?_of_mapM filled (underscore_not_mem_hexFixed _ value) read, sum,
    Nat.mod_eq_of_lt (lt_pow_width width value)]

/-- Hexadecimal text behind a base mark reads back as its value. -/
theorem markedNumeral?_hexDigits (width value : Nat) :
    markedNumeral? 16 (hexDigits width value) = some value := by
  have whole := underscore_not_mem_hexFixed (max width (hexWidth value)) value
  rw [← numeral?_hexDigits width value]
  unfold markedNumeral?
  split
  · -- No digit is a separator.
    rename_i rest text
    simp [hexDigits] at text
    simp [text] at whole
  · rfl

/-! ### Padded text -/

/-- A number as upper-case hexadecimal text, with zeros in front of it up to a width. -/
def paddedHex (width value : Nat) : List Char :=
  ((Nat.toDigits 16 value).map Char.toUpper).leftpad width '0'

/-- The core library writes the same digits, in lower case. -/
theorem toUpper_digitChar {value : Nat} (small : value < 16) :
    value.digitChar.toUpper = hexDigit value := by
  -- There are sixteen digits to write.
  have table : ∀ digit : Fin 16, digit.val.digitChar.toUpper = hexDigit digit := by decide
  exact table ⟨value, small⟩

/-- The text of zero has no other digit. -/
theorem hexFixed_zero (width : Nat) : hexFixed width 0 = List.replicate width '0' := by
  induction width with
  | zero => rfl
  | succ width ih =>
    rw [hexFixed, Nat.zero_div, ih, List.replicate_succ']
    rfl

/-- A text of fixed width is the number behind zeros, if all of the number has room in it. -/
theorem hexFixed_eq_padded {width value : Nat} (wide : 0 < width)
    (fits : value < Nat.pow 16 width) : hexFixed width value = paddedHex width value := by
  -- The last digit is a remainder in both texts, unless the number has one digit only.
  induction width generalizing value with
  | zero => cases wide
  | succ width ih =>
    by_cases small : value < 16
    · have quotient : value / 16 = 0 := Nat.div_eq_of_lt small
      rw [hexFixed, quotient, hexFixed_zero, Nat.mod_eq_of_lt small, paddedHex,
        Nat.toDigits_of_lt_base small, List.map_singleton, toUpper_digitChar small, List.leftpad,
        List.length_singleton, Nat.add_sub_cancel]
    · have shorter : value / 16 < Nat.pow 16 width := by
        have power : Nat.pow 16 (width + 1) = Nat.pow 16 width * 16 := rfl
        rw [power] at fits
        exact Nat.div_lt_of_lt_mul (by omega)
      -- A number of several digits leaves a quotient, which needs room, too.
      have room : 0 < width := by
        cases width with
        | zero => exact absurd fits small
        | succ width => exact Nat.succ_pos width
      rw [hexFixed, ih room shorter, paddedHex, paddedHex,
        Nat.toDigits_of_base_le (by decide) (Nat.le_of_not_lt small), List.map_append,
        List.map_singleton, toUpper_digitChar (Nat.mod_lt value (by decide)), List.leftpad,
        List.leftpad, List.length_append, List.length_singleton, Nat.add_sub_add_right,
        List.append_assoc]

/-- A number has at least as many digits as its width says. -/
theorem hexWidth_le_length (value : Nat) : hexWidth value ≤ (Nat.toDigits 16 value).length := by
  -- Four binary digits are one hexadecimal digit, and there is one digit at least.
  have filled : 0 < (Nat.toDigits 16 value).length := Nat.length_toDigits_pos
  have fits := (Nat.length_toDigits_le_iff (n := value) (show 1 < 16 by decide) filled).mp
    (Nat.le_refl _)
  by_cases zero : value = 0
  · subst zero
    exact filled
  · have binary : 16 ^ (Nat.toDigits 16 value).length =
        2 ^ (4 * (Nat.toDigits 16 value).length) := (Nat.pow_mul 2 4 _).symm
    have digits := (Nat.log2_lt zero).mpr (binary ▸ fits)
    unfold hexWidth
    omega

/-- Hexadecimal text is the number behind as many zeros as the width asks for. -/
theorem hexDigits_eq_padded (width value : Nat) :
    hexDigits width value = paddedHex width value := by
  have wide : 0 < max width (hexWidth value) := by
    unfold hexWidth
    omega
  -- Where the number is wider than the width, there are no zeros.
  have zeros : max width (hexWidth value) - (Nat.toDigits 16 value).length =
      width - (Nat.toDigits 16 value).length := by
    have enough := hexWidth_le_length value
    omega
  rw [hexDigits, hexFixed_eq_padded wide (lt_pow_width width value), paddedHex, paddedHex,
    List.leftpad, List.leftpad, List.length_map, zeros]

end Chip8
