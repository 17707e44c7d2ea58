import Chip8.Text.Numeral

/-! Floating-point numbers in text, rounded to the nearest double. -/

namespace Chip8

/-- Whether a character is a decimal digit of some script. -/
def isDecimal (char : Char) : Bool :=
  (decimalValue? char).isSome

/-- Text without its underscores, all of which must stand between two digits. -/
def withoutUnderscores? : List Char → Option (List Char)
  | [] => some []
  | '_' :: _ => none
  | before :: '_' :: after :: rest =>
    if isDecimal before && isDecimal after then
      (withoutUnderscores? (after :: rest)).map (before :: ·)
    else none
  | char :: rest => (withoutUnderscores? rest).map (char :: ·)

/-- The exponent behind a mantissa: none at all, or a mark, an optional sign and digits. -/
def exponent? : List Char → Option Int
  | [] => some 0
  | mark :: rest =>
    if mark = 'e' ∨ mark = 'E' then
      let (sign, digits) := splitSign rest
      if digits.isEmpty || !digits.all isDecimal then none
      else
        let value := ofDigits 10 (digits.filterMap decimalValue?)
        some (sign * (value : Nat))
    else none

/-- The double nearest to a whole number times a power of ten. -/
def scaled (mantissa : Nat) (exponent : Int) : Float :=
  let magnitude := (mantissa.log2 * 30103 / 100000 : Nat) + exponent
  -- Far outside the range of doubles the exact power is not worth computing.
  if mantissa = 0 ∨ magnitude < -400 then 0.0
  else if 400 < magnitude then 1.0 / 0.0
  else Float.ofScientific mantissa (exponent < 0) exponent.natAbs

/-- A decimal number without sign, with digits before or behind an optional point. -/
def unsignedDecimal? (text : List Char) : Option Float := do
  let whole := text.takeWhile isDecimal
  let rest := text.dropWhile isDecimal
  let (fraction, tail) :=
    match rest with
    | '.' :: behind => (behind.takeWhile isDecimal, behind.dropWhile isDecimal)
    | _ => ([], rest)
  let digits := (whole ++ fraction).filterMap decimalValue?
  if digits.isEmpty then none
  let exponent ← exponent? tail
  return scaled (ofDigits 10 digits) (exponent - fraction.length)

/-- A number without sign: a decimal number, or a name of infinity or of the undefined number. -/
def unsignedFloat? (text : List Char) : Option Float :=
  let name := String.ofList (text.map Char.toLower)
  if name == "inf" || name == "infinity" then some (1.0 / 0.0)
  else if name == "nan" then some (0.0 / 0.0)
  else unsignedDecimal? text

/-- A number with an optional sign and blanks around it. -/
def float? (text : List Char) : Option Float := do
  let bare ← withoutUnderscores? (trimNumber text)
  let (sign, unsigned) := splitSign bare
  let magnitude ← unsignedFloat? unsigned
  return if sign < 0 then -magnitude else magnitude

end Chip8
