import Chip8.Hex
import Chip8.Text.Printable

/-! Quoted text, in which quotes, backslashes and invisible characters are escaped. -/

namespace Chip8

/-- The escape of a code point: two, four or eight lower-case digits behind a mark. -/
def codeEscape (code : Nat) : List Char :=
  let digits (width : Nat) := (hexFixed width code).map Char.toLower
  if code < 0x100 then '\x5c' :: 'x' :: digits 2
  else if code < 0x10000 then '\x5c' :: 'u' :: digits 4
  else '\x5c' :: 'U' :: digits 8

/-- A character as it stands between the given quotes. -/
def escapeChar (quote char : Char) : List Char :=
  if char = quote ∨ char = '\x5c' then ['\x5c', char]
  else if char = '\t' then "\\t".toList
  else if char = '\n' then "\\n".toList
  else if char = '\r' then "\\r".toList
  else if isPrintable char then [char]
  else codeEscape char.toNat

/-- Single quotes, unless the text holds some and no double quotes. -/
def quoteFor (text : List Char) : Char :=
  if text.contains '\x27' && !text.contains '\x22' then '\x22' else '\x27'

/-- A text between quotes. -/
def quoted (text : List Char) : List Char :=
  let quote := quoteFor text
  quote :: text.flatMap (escapeChar quote) ++ [quote]

/-- A quoted string. -/
def quotedText (text : String) : String :=
  String.ofList (quoted text.toList)

end Chip8
