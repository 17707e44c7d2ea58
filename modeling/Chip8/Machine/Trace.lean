import Chip8.Execution
import Chip8.Instruction.Text

/-! The record of one machine cycle: what it did, and the registers before and after it. -/

namespace Chip8

/-- What a cycle did. -/
inductive Activity where
  /-- The word could not be fetched. -/
  | unfetched
  /-- A fetched word was executed, or refused. -/
  | executed (word : Word)
  /-- A key press ended the wait of the word's instruction. -/
  | keyDelivered (word : Word) (register : Int) (key : Key)
  deriving DecidableEq

/-- One entry of an execution trace. -/
structure TraceEntry where
  /-- The number of instructions that were executed before the cycle. -/
  cycle : Int
  /-- The address at which the cycle began. -/
  pc : Int
  activity : Activity
  before : Registers
  after : Registers
  /-- The fault that ended the cycle. -/
  fault : Option Fault := none
  deriving DecidableEq

namespace TraceEntry

/-- The word that was fetched. -/
def word? (entry : TraceEntry) : Option Word :=
  match entry.activity with
  | .unfetched => none
  | .executed word | .keyDelivered word .. => some word

/-- The assembly text of the cycle. -/
def instruction (entry : TraceEntry) : String :=
  match entry.activity with
  | .unfetched => "<FETCH>"
  | .executed word => word.mnemonic
  | .keyDelivered _ register key => s!"LD V{hexText 0 register}, K ; key {hexText 0 key.val}"

/-- The key of the operation that was decoded in this cycle. -/
def operationKey? (entry : TraceEntry) : Option String :=
  match entry.activity with
  | .executed word => some (Operation.keyOf word.operation?)
  | _ => none

/-- The sentence of the fault that ended the cycle. -/
def error? (entry : TraceEntry) : Option String :=
  entry.fault.map Fault.message

/-- The fetched word in four digits, or dashes. -/
def wordText (entry : TraceEntry) : String :=
  match entry.word? with
  | some word => hexText 4 word.val
  | none => "----"

/-- The general registers that changed: place, old value and new value. -/
def changedRegisters (entry : TraceEntry) : List (Nat × Int × Int) :=
  ((entry.before.v.zip entry.after.v).zipIdx.filter fun (values, _) => values.1 != values.2).map
    fun (values, place) => (place, values)

end TraceEntry

end Chip8
