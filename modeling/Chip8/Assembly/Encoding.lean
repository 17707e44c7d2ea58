import Chip8.Assembly.Layout
import Chip8.Instruction.Basic
import Chip8.Text.Numeral

/-! The bytes of a command, given the values of the labels. -/

namespace Chip8

/-- The mnemonics of two-byte commands. -/
inductive Mnemonic where
  | dw | cls | ret | sys | jp | call | se | sne | ld | add | or | and | xor | sub | subn | shr | shl
  | rnd | drw | skp | sknp
  deriving DecidableEq

namespace Mnemonic

/-- All mnemonics with their names. -/
def names : List (List Char × Mnemonic) :=
  [ ("DW".toList, .dw), ("CLS".toList, .cls), ("RET".toList, .ret), ("SYS".toList, .sys),
    ("JP".toList, .jp), ("CALL".toList, .call), ("SE".toList, .se), ("SNE".toList, .sne),
    ("LD".toList, .ld), ("ADD".toList, .add), ("OR".toList, .or), ("AND".toList, .and),
    ("XOR".toList, .xor), ("SUB".toList, .sub), ("SUBN".toList, .subn), ("SHR".toList, .shr),
    ("SHL".toList, .shl), ("RND".toList, .rnd), ("DRW".toList, .drw), ("SKP".toList, .skp),
    ("SKNP".toList, .sknp) ]

/-- The letter a mnemonic is read with: the sign of the unit kelvin counts as its letter. -/
def plainLetter (char : Char) : Char :=
  if char.toNat = 0x212A then 'K' else char

/-- The mnemonic that a text names. -/
def ofText? (text : List Char) : Option Mnemonic :=
  names.lookup (text.map plainLetter)

end Mnemonic

namespace Operand

/-- The number an operand is written as: hexadecimal or binary behind a mark, or else decimal. -/
def number? : List Char → Option Int
  | '0' :: 'X' :: rest => (markedNumeral? 16 rest).map Int.ofNat
  | '0' :: 'B' :: rest => (markedNumeral? 2 rest).map Int.ofNat
  | text => decimalInteger? text

/-- The register an operand names by one upper-case digit. -/
def register? : List Char → Option Nibble
  | ['V', digit] =>
    if '0' ≤ digit ∧ digit ≤ '9' then some (Nibble.ofInt (digit.toNat - 48))
    else if 'A' ≤ digit ∧ digit ≤ 'F' then some (Nibble.ofInt (digit.toNat - 55))
    else none
  | _ => none

/-- The register an operand must name. -/
def register (operand : List Char) : Except AssemblyCause Nibble :=
  match register? operand with
  | some x => .ok x
  | none => .error (.expectedRegister operand)

/-- The integer an operand stands for: a number, or else a label's value. -/
def integer (labels : Labels) (operand : List Char) : Except AssemblyCause Int :=
  match number? operand with
  | some number => .ok number
  | none =>
    match labels.lookup operand with
    | some address => .ok address
    | none => .error (.unknownLabel operand)

/-- The value an operand must have in a field of some bits. -/
def value (labels : Labels) (operand : List Char) (bits : Nat) :
    Except AssemblyCause (Fin (1 <<< bits)) := do
  let number ← integer labels operand
  if bounded : number.toNat < 1 <<< bits then
    if number < 0 then throw (.valueTooWide operand bits)
    return ⟨number.toNat, bounded⟩
  else
    throw (.valueTooWide operand bits)

/-- An operand that stands for an address. -/
def address (labels : Labels) (operand : List Char) : Except AssemblyCause Address :=
  value labels operand 12

/-- An operand that stands for a byte. -/
def byte (labels : Labels) (operand : List Char) : Except AssemblyCause Byte :=
  value labels operand 8

end Operand

namespace Mnemonic

open Operand

/-- An instruction whose last operand is a register or else a byte. -/
def eitherWord (labels : Labels) (operand : List Char)
    (withRegister : Nibble → Instruction) (withByte : Byte → Instruction) :
    Except AssemblyCause Word := do
  match register? operand with
  | some y => return (withRegister y).encode
  | none => return (withByte (← byte labels operand)).encode

/-- An instruction on two registers. -/
def pairWord (operands : List (List Char)) (instruction : Nibble → Nibble → Instruction) :
    Except AssemblyCause Word :=
  match operands with
  | [first, second] => do
    let x ← register first
    let y ← register second
    return (instruction x y).encode
  | _ => .error (.operandCount [2] operands.length)

/-- A shift, whose word keeps a second register although no shift looks at it. -/
def shiftWord (operands : List (List Char)) (selector : Nibble) : Except AssemblyCause Word :=
  match operands with
  | [first] => do
    return .ofNibbles 0x8 (← register first) 0 selector
  | [first, second] => do
    let x ← register first
    let y ← register second
    return .ofNibbles 0x8 x y selector
  | _ => .error (.operandCount [1, 2] operands.length)

/-- An instruction on one register. -/
def singleWord (operands : List (List Char)) (instruction : Nibble → Instruction) :
    Except AssemblyCause Word :=
  match operands with
  | [first] => do
    return (instruction (← register first)).encode
  | _ => .error (.operandCount [1] operands.length)

/-- An instruction on an address. -/
def addressWord (labels : Labels) (operands : List (List Char))
    (instruction : Address → Instruction) : Except AssemblyCause Word :=
  match operands with
  | [first] => do
    return (instruction (← address labels first)).encode
  | _ => .error (.operandCount [1] operands.length)

/-- A load, whose kind its target decides first and its source second. -/
def loadWord (labels : Labels) (target source : List Char) : Except AssemblyCause Word := do
  if target = "I".toList then return (Instruction.loadIndex (← address labels source)).encode
  if target = "DT".toList then return (Instruction.setDelay (← register source)).encode
  if target = "ST".toList then return (Instruction.setSound (← register source)).encode
  if target = "F".toList then return (Instruction.loadGlyph (← register source)).encode
  if target = "B".toList then return (Instruction.storeDecimal (← register source)).encode
  if target = "[I]".toList then return (Instruction.storeRegisters (← register source)).encode
  let x ← register target
  if source = "DT".toList then return (Instruction.readDelay x).encode
  if source = "K".toList then return (Instruction.waitKey x).encode
  if source = "[I]".toList then return (Instruction.loadRegisters x).encode
  eitherWord labels source (.copy x) (.loadByte x)

/-- The word of a two-byte command. -/
def word (labels : Labels) (operands : List (List Char)) : Mnemonic → Except AssemblyCause Word
  | .dw =>
    match operands with
    | [first] => value labels first 16
    | _ => .error (.operandCount [1] operands.length)
  | .cls =>
    if operands.isEmpty then .ok Instruction.clear.encode
    else .error (.operandCount [0] operands.length)
  | .ret =>
    if operands.isEmpty then .ok Instruction.ret.encode
    else .error (.operandCount [0] operands.length)
  | .sys => addressWord labels operands .sys
  | .jp =>
    match operands with
    | [target] => do
      return (Instruction.jump (← address labels target)).encode
    | [base, target] =>
      if base = "V0".toList then do
        return (Instruction.jumpOffset (← address labels target)).encode
      else .error .indexedJump
    | _ => .error (.operandCount [1, 2] operands.length)
  | .call => addressWord labels operands .call
  | .se =>
    match operands with
    | [first, second] => do
      let x ← register first
      eitherWord labels second (.skipIfEqual x) (.skipIfByte x)
    | _ => .error (.operandCount [2] operands.length)
  | .sne =>
    match operands with
    | [first, second] => do
      let x ← register first
      eitherWord labels second (.skipUnlessEqual x) (.skipUnlessByte x)
    | _ => .error (.operandCount [2] operands.length)
  | .ld =>
    match operands with
    | [target, source] => loadWord labels target source
    | _ => .error (.operandCount [2] operands.length)
  | .add =>
    match operands with
    | [target, source] =>
      if target = "I".toList then do
        return (Instruction.addIndex (← register source)).encode
      else do
        let x ← register target
        eitherWord labels source (.add x) (.addByte x)
    | _ => .error (.operandCount [2] operands.length)
  | .or => pairWord operands .bitOr
  | .and => pairWord operands .bitAnd
  | .xor => pairWord operands .bitXor
  | .sub => pairWord operands .sub
  | .subn => pairWord operands .subFrom
  | .shr => shiftWord operands 0x6
  | .shl => shiftWord operands 0xE
  | .rnd =>
    match operands with
    | [first, mask] => do
      let x ← register first
      return (Instruction.random x (← byte labels mask)).encode
    | _ => .error (.operandCount [2] operands.length)
  | .drw =>
    match operands with
    | [first, second, rows] => do
      let x ← register first
      let y ← register second
      return (Instruction.draw x y (← value labels rows 4)).encode
    | _ => .error (.operandCount [3] operands.length)
  | .skp => singleWord operands .skipIfKey
  | .sknp => singleWord operands .skipUnlessKey

end Mnemonic

/-- The bytes of a command. -/
def Command.encode (labels : Labels) (command : Command) : Except AssemblyCause (List Byte) :=
  if command.isData then
    if command.operands.isEmpty then .error .emptyData
    else command.operands.mapM (Operand.byte labels)
  else
    match Mnemonic.ofText? command.mnemonic with
    | none => .error (.unknownInstruction command.mnemonic)
    | some mnemonic => (mnemonic.word labels command.operands).map Word.toBytes

end Chip8
