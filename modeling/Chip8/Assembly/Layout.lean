import Chip8.Assembly.Error
import Chip8.Assembly.Statement
import Chip8.Memory

/-!
The addresses of commands and labels.

Every command but a run of bytes starts at an even address, and a label stands for the address of
the next command.
-/

namespace Chip8

/-- Label values, of which the first entry of a name counts. -/
abbrev Labels := List (List Char × Int)

/-- The mnemonic of a run of bytes. -/
def dataMnemonic : List Char :=
  ['D', 'B']

namespace Command

/-- A run of bytes, which may stand at any address. -/
def isData (command : Command) : Bool :=
  command.mnemonic == dataMnemonic

/-- Number of bytes of a command. -/
def size (command : Command) : Nat :=
  if command.isData then command.operands.length else 2

/-- The first address at which a command may start. -/
def startFrom (command : Command) (address : Int) : Int :=
  if command.isData then address else address + address % 2

end Command

/-- A command at its address. -/
structure Placed where
  line : Nat
  address : Int
  command : Command
  deriving DecidableEq

/-- Label values and the commands in source order. -/
structure Layout where
  labels : Labels
  placed : List Placed
  deriving DecidableEq

namespace Layout

/-- Labels that wait for the next command, with one more if its name is new. -/
def await (labels : Labels) (waiting : List (List Char)) (statement : Statement) :
    Except AssemblyError (List (List Char)) :=
  match statement.label with
  | none => .ok waiting
  | some name =>
    if (labels.lookup name).isSome || waiting.contains name then
      .error ⟨statement.line, .duplicateLabel name⟩
    else .ok (waiting ++ [name])

/-- Waiting labels get a value. -/
def bindAll (labels : Labels) (waiting : List (List Char)) (address : Int) : Labels :=
  waiting.map (fun name => (name, address)) ++ labels

/-- Lays out statements from an address on, when some labels have values and some wait for one. -/
def place (labels : Labels) (waiting : List (List Char)) (address : Int) :
    List Statement → Except AssemblyError Layout
  | [] => .ok ⟨bindAll labels waiting address, []⟩
  | statement :: rest =>
    match await labels waiting statement with
    | .error error => .error error
    | .ok waiting =>
      match statement.command with
      | none => place labels waiting address rest
      | some command =>
        let start := command.startFrom address
        let finish := start + command.size
        if memorySize < finish then .error ⟨statement.line, .memoryOverflow⟩
        else
          (place (bindAll labels waiting start) [] finish rest).map fun layout =>
            { layout with placed := ⟨statement.line, start, command⟩ :: layout.placed }

/-- Lays out the statements of a program that starts at an origin. -/
def ofStatements (statements : List Statement) (origin : Int) : Except AssemblyError Layout :=
  place [] [] origin statements

end Layout

end Chip8
