/-! Upper-case hexadecimal text, with leading zeros up to the width of a byte, address or word. -/

namespace Chip8

/-- The upper-case digit of a value below sixteen. -/
def hexDigit (value : Nat) : Char :=
  if value < 10 then Char.ofNat (48 + value) else Char.ofNat (55 + value)

/-- Exactly the given number of hexadecimal digits, most significant first. -/
def hexFixed : Nat → Nat → List Char
  | 0, _ => []
  | width + 1, value => hexFixed width (value / 16) ++ [hexDigit (value % 16)]

/-- Digits a value needs: one, and one more for every further four bits. -/
def hexWidth (value : Nat) : Nat :=
  value.log2 / 4 + 1

/-- All hexadecimal digits of a value, with leading zeros up to the given width. -/
def hexDigits (width value : Nat) : List Char :=
  hexFixed (max width (hexWidth value)) value

/-- Hexadecimal text of an integer, in which a minus sign takes one place of the width. -/
def hexSigned (width : Nat) (value : Int) : List Char :=
  if value < 0 then '-' :: hexDigits (width - 1) value.natAbs else hexDigits width value.natAbs

/-- Hexadecimal text of an integer as a string. -/
def hexText (width : Nat) (value : Int) : String :=
  String.ofList (hexSigned width value)

/-- A fixed-width text has that many digits. -/
@[simp]
theorem hexFixed_length (width value : Nat) : (hexFixed width value).length = width := by
  -- Each step appends one digit behind a text one digit shorter.
  induction width generalizing value with
  | zero => rfl
  | succ width ih => simp [hexFixed, ih]

end Chip8
