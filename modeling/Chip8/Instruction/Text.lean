import Chip8.Hex
import Chip8.Instruction.Basic

/-! The assembly text of instructions and of words that are no instruction. -/

namespace Chip8

/-- A register operand. -/
def registerText (x : Nibble) : List Char :=
  'V' :: hexDigits 0 x.val

/-- An address operand of three digits. -/
def addressText (value : Address) : List Char :=
  "0x".toList ++ hexDigits 3 value.val

/-- A byte operand of two digits. -/
def byteText (value : Byte) : List Char :=
  "0x".toList ++ hexDigits 2 value.val

/-- A statement with operands, which stand behind a blank and are separated by commas. -/
def statementText (name : String) (operands : List (List Char)) : List Char :=
  name.toList ++ ' ' :: List.intercalate ", ".toList operands

/-- The assembly text of an instruction. -/
def Instruction.text : Instruction → List Char
  | .clear => "CLS".toList
  | .ret => "RET".toList
  | .sys target => statementText "SYS" [addressText target]
  | .jump target => statementText "JP" [addressText target]
  | .call target => statementText "CALL" [addressText target]
  | .skipIfByte x value => statementText "SE" [registerText x, byteText value]
  | .skipUnlessByte x value => statementText "SNE" [registerText x, byteText value]
  | .skipIfEqual x y => statementText "SE" [registerText x, registerText y]
  | .loadByte x value => statementText "LD" [registerText x, byteText value]
  | .addByte x value => statementText "ADD" [registerText x, byteText value]
  | .copy x y => statementText "LD" [registerText x, registerText y]
  | .bitOr x y => statementText "OR" [registerText x, registerText y]
  | .bitAnd x y => statementText "AND" [registerText x, registerText y]
  | .bitXor x y => statementText "XOR" [registerText x, registerText y]
  | .add x y => statementText "ADD" [registerText x, registerText y]
  | .sub x y => statementText "SUB" [registerText x, registerText y]
  | .shiftRight x => statementText "SHR" [registerText x]
  | .subFrom x y => statementText "SUBN" [registerText x, registerText y]
  | .shiftLeft x => statementText "SHL" [registerText x]
  | .skipUnlessEqual x y => statementText "SNE" [registerText x, registerText y]
  | .loadIndex target => statementText "LD" ["I".toList, addressText target]
  | .jumpOffset target => statementText "JP" ["V0".toList, addressText target]
  | .random x value => statementText "RND" [registerText x, byteText value]
  | .draw x y rows => statementText "DRW" [registerText x, registerText y, Nat.toDigits 10 rows.val]
  | .skipIfKey x => statementText "SKP" [registerText x]
  | .skipUnlessKey x => statementText "SKNP" [registerText x]
  | .readDelay x => statementText "LD" [registerText x, "DT".toList]
  | .waitKey x => statementText "LD" [registerText x, "K".toList]
  | .setDelay x => statementText "LD" ["DT".toList, registerText x]
  | .setSound x => statementText "LD" ["ST".toList, registerText x]
  | .addIndex x => statementText "ADD" ["I".toList, registerText x]
  | .loadGlyph x => statementText "LD" ["F".toList, registerText x]
  | .storeDecimal x => statementText "LD" ["B".toList, registerText x]
  | .storeRegisters x => statementText "LD" ["[I]".toList, registerText x]
  | .loadRegisters x => statementText "LD" [registerText x, "[I]".toList]

/-- The assembly text of a word: its instruction, or else the word as data. -/
def Word.text (word : Word) : List Char :=
  match word.decode with
  | some instruction => instruction.text
  | none => statementText "DW" ["0x".toList ++ hexDigits 4 word.val]

/-- The assembly text of a word as a string. -/
def Word.mnemonic (word : Word) : String :=
  String.ofList word.text

end Chip8
