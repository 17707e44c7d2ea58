import Chip8.Keypad
import Chip8.Text.Numeral
import Chip8.Text.Quoted

/-! Lists of keys in text: hexadecimal numbers between commas. -/

namespace Chip8

/-- Why a key list was refused. -/
inductive KeyListError where
  /-- The item is no hexadecimal number. -/
  | notANumber (item : List Char)
  /-- The number of the item names none of the sixteen keys. -/
  | noKey (item : List Char)
  deriving DecidableEq

/-- Most characters of a quoted item that a report shows. -/
def maxQuotedItem : Nat := 200

/-- The sentence that reports a refusal. -/
def KeyListError.message : KeyListError → String
  | .notANumber item =>
    "invalid literal for int() with base 16: " ++ String.ofList ((quoted item).take maxQuotedItem)
  | .noKey item => s!"Invalid key: {String.ofList item}"

/-- The key that an item names. -/
def parseKey (item : List Char) : Except KeyListError Key :=
  match hexInteger? item with
  | none => .error (.notANumber item)
  | some number =>
    match Keypad.key number with
    | .ok key => .ok key
    | .error _ => .error (.noKey item)

/-- The keys of a list, in which blank items count for nothing. -/
def parseKeys (text : List Char) : Except KeyListError (List Key) :=
  let items := (splitAt ',' text).map trim
  (items.filter fun item => !item.isEmpty).mapM parseKey

end Chip8
