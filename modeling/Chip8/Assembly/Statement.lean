import Chip8.Text.Blank
import Chip8.Text.Uppercase

/-!
Assembly source cut into statements.

A line may hold a label, a command with operands, both or neither, and a comment behind them.
-/

namespace Chip8

/-- A mnemonic and its operands. -/
structure Command where
  mnemonic : List Char
  operands : List (List Char)
  deriving DecidableEq

/-- What one source line says. -/
structure Statement where
  /-- The number of the line, counted from one. -/
  line : Nat
  label : Option (List Char)
  command : Option Command
  deriving DecidableEq

namespace Statement

/-- A line without its comment. -/
def uncommented (line : List Char) : List Char :=
  line.takeWhile fun char => char != ';' && char != '#'

/-- A line as it is read: without comment and outer blanks, in upper case. -/
def normalized (line : List Char) : List Char :=
  upperText (trim (uncommented line))

/-- Whether a character may begin a label. -/
def isLabelStart (char : Char) : Bool :=
  ('A' ≤ char && char ≤ 'Z') || char == '_' || char == '.'

/-- Whether a character may stand in a label. -/
def isLabelPart (char : Char) : Bool :=
  isLabelStart char || ('0' ≤ char && char ≤ '9')

/-- The label in front of a line, which a colon ends at once, and the rest of the line. -/
def splitLabel (line : List Char) : Option (List Char) × List Char :=
  match line with
  | [] => (none, [])
  | first :: rest =>
    match rest.dropWhile isLabelPart with
    | ':' :: behind =>
      if isLabelStart first then (some (first :: rest.takeWhile isLabelPart), trim behind)
      else (none, line)
    | _ => (none, line)

/-- A mnemonic up to the first blank, and the operands between the commas behind it. -/
def parseCommand (text : List Char) : Command :=
  let operands := trimStart (text.dropWhile fun char => !isBlank char)
  { mnemonic := text.takeWhile fun char => !isBlank char
    operands := if operands.isEmpty then [] else (splitAt ',' operands).map trim }

/-- The statement of a line, if the line says anything. -/
def parseLine (number : Nat) (line : List Char) : Option Statement :=
  let text := normalized line
  if text.isEmpty then none
  else
    let (label, rest) := splitLabel text
    some ⟨number, label, if rest.isEmpty then none else some (parseCommand rest)⟩

/-- The statements of a list of lines, the first of which has the given number. -/
def parseLines : Nat → List (List Char) → List Statement
  | _, [] => []
  | number, line :: rest => (parseLine number line).toList ++ parseLines (number + 1) rest

/-- The statements of a source text. -/
def parse (source : List Char) : List Statement :=
  parseLines 1 (splitAt '\n' source)

end Statement

end Chip8
