import Chip8.Text.Blank
import Chip8.Text.DecimalDigit

/-!
Whole numbers in text.

Digits may be of any script, single underscores may stand between them, and a decimal number may
have a sign.
-/

namespace Chip8

/-- Most digits that a decimal number may have. -/
def maxDecimalDigits : Nat := 4300

/-- The values of digits to a base, which single underscores may separate. -/
def digits? (base : Nat) (text : List Char) : Option (List Nat) :=
  let groups := splitAt '_' text
  -- An empty group means a missing digit at an end or beside an underscore.
  if groups.any List.isEmpty then none else groups.flatten.mapM (digitValue? base)

/-- The number that digits stand for, most significant first. -/
def ofDigits (base : Nat) (digits : List Nat) : Nat :=
  digits.foldl (fun value digit => base * value + digit) 0

/-- A number without sign to a base. -/
def numeral? (base : Nat) (text : List Char) : Option Nat :=
  (digits? base text).map (ofDigits base)

/-- A number behind a base mark, after which one underscore may stand. -/
def markedNumeral? (base : Nat) : List Char → Option Nat
  | '_' :: rest => numeral? base rest
  | text => numeral? base text

/-- A sign as a factor, and the text behind it. -/
def splitSign : List Char → Int × List Char
  | '-' :: rest => (-1, rest)
  | '+' :: rest => (1, rest)
  | text => (1, text)

/-- A decimal number with an optional sign. -/
def decimalInteger? (text : List Char) : Option Int :=
  let (sign, unsigned) := splitSign text
  match digits? 10 unsigned with
  | some digits =>
    if digits.length ≤ maxDecimalDigits then some (sign * (ofDigits 10 digits : Nat)) else none
  | none => none

/-- A hexadecimal number with an optional sign and an optional base mark. -/
def hexInteger? (text : List Char) : Option Int :=
  let (sign, unsigned) := splitSign text
  let value :=
    match unsigned with
    | first :: mark :: rest =>
      if decimalValue? first = some 0 ∧ (mark = 'x' ∨ mark = 'X') then markedNumeral? 16 rest
      else numeral? 16 unsigned
    | _ => numeral? 16 unsigned
  value.map fun (magnitude : Nat) => sign * magnitude

/-- Whether a blank may surround a number; the four separators of records may not. -/
def isNumberBlank (char : Char) : Bool :=
  isBlank char && !(0x1C ≤ char.toNat && char.toNat ≤ 0x1F)

/-- A number's text without the blanks around it. -/
def trimNumber (text : List Char) : List Char :=
  ((text.dropWhile isNumberBlank).reverse.dropWhile isNumberBlank).reverse

end Chip8
