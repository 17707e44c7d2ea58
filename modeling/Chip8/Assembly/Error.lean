import Chip8.Text.Quoted

/-! The causes for which assembly source is refused, and the sentence that reports each. -/

namespace Chip8

/-- Why a statement was refused. -/
inductive AssemblyCause where
  /-- The label is defined twice. -/
  | duplicateLabel (name : List Char)
  /-- The statement would end behind the end of memory. -/
  | memoryOverflow
  /-- A register was expected in place of the operand. -/
  | expectedRegister (operand : List Char)
  /-- The operand is neither a number nor a known label. -/
  | unknownLabel (operand : List Char)
  /-- The value of the operand is negative or too large for its field. -/
  | valueTooWide (operand : List Char) (bits : Nat)
  /-- A data statement holds no bytes. -/
  | emptyData
  /-- No instruction has the mnemonic. -/
  | unknownInstruction (mnemonic : List Char)
  /-- The instruction takes one of some numbers of operands, and has another. -/
  | operandCount (expected : List Nat) (given : Nat)
  /-- An indexed jump names another register than the first. -/
  | indexedJump
  deriving DecidableEq

/-- The sentence that reports a cause. -/
def AssemblyCause.message : AssemblyCause → String
  | .duplicateLabel name => s!"Duplicate label: {String.ofList name}"
  | .memoryOverflow => "Program does not fit in memory"
  | .expectedRegister operand => s!"Expected register, got {String.ofList (quoted operand)}"
  | .unknownLabel operand => s!"Unknown label: {String.ofList operand}"
  | .valueTooWide operand bits => s!"Value {String.ofList operand} does not fit in {bits} bits"
  | .emptyData => "DB needs at least one byte"
  | .unknownInstruction mnemonic => s!"Unknown instruction: {String.ofList mnemonic}"
  | .operandCount expected given =>
    let counts := " or ".intercalate (expected.map toString)
    s!"Expected {counts} operand(s), got {given}"
  | .indexedJump => "Indexed jump must use V0"

/-- A refused statement and the number of its line. -/
structure AssemblyError where
  line : Nat
  cause : AssemblyCause
  deriving DecidableEq

/-- The sentence that reports a refused statement. -/
def AssemblyError.message (error : AssemblyError) : String :=
  s!"line {error.line}: {error.cause.message}"

end Chip8
