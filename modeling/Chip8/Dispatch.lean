import Chip8.Execution

/-!
A dispatch table that is filled operation by operation and then frozen.

A table refuses to be frozen while an operation lacks a handler, so a frozen table answers to every
instruction.
-/

namespace Chip8

/-- What a table does for an operation, which is handed all fields of the word. -/
abbrev Handler := Word.Fields → Registers → Board → Outcome

/-- Why a table refused to change. -/
inductive DispatchError where
  /-- A frozen table takes no further handler. -/
  | frozen
  /-- The key of words without instruction cannot have a handler. -/
  | unhandleable
  /-- The operation has a handler already. -/
  | alreadyRegistered (operation : Operation)
  /-- Some operations have no handler yet. -/
  | unhandled (operations : List Operation)
  deriving DecidableEq

/-- The sentence that reports a refusal. -/
def DispatchError.message : DispatchError → String
  | .frozen => "Cannot register primitives: registry is frozen"
  | .unhandleable => "Op.INVALID cannot have a handler"
  | .alreadyRegistered operation => s!"Primitive already registered: {operation.key}"
  | .unhandled operations =>
    s!"Unhandled operation keys: " ++ ", ".intercalate (operations.map Operation.key)

/-- The sentence that refuses a key that names no operation. -/
def DispatchError.unknownKey (key : String) : String :=
  s!"{quotedText key} is not a valid Op"

/-- What a word is looked up by: its operation, or else the key of words without instruction. -/
abbrev DispatchKey := Option Operation

/-- Handlers by key, and whether the table is closed to changes. -/
structure DispatchTable where
  handlers : List (DispatchKey × Handler)
  frozen : Bool

namespace DispatchTable

/-- No operation has a handler, and all may be registered. -/
def blank : DispatchTable :=
  ⟨[], false⟩

/-- The handler of a key. -/
def handler? (table : DispatchTable) (key : DispatchKey) : Option Handler :=
  (table.handlers.find? fun entry => entry.1 == key).map Prod.snd

/-- The keys that have a handler. -/
def keys (table : DispatchTable) : List DispatchKey :=
  table.handlers.map Prod.fst

/-- Gives a key its handler, in the place of the handler that the key may have. -/
def assign (key : DispatchKey) (handler : Handler) :
    List (DispatchKey × Handler) → List (DispatchKey × Handler)
  | [] => [(key, handler)]
  | entry :: rest =>
    if entry.1 == key then (key, handler) :: rest else entry :: assign key handler rest

/-- Gives an operation its handler. -/
def register (table : DispatchTable) (key : DispatchKey) (handler : Handler) :
    Except DispatchError Unit × DispatchTable :=
  if table.frozen then (.error .frozen, table)
  else
    match key with
    | none => (.error .unhandleable, table)
    | some operation =>
      if (table.handler? key).isSome then (.error (.alreadyRegistered operation), table)
      else (.ok (), { table with handlers := assign key handler table.handlers })

/-- The order in which the standard handlers are registered, by what they act on. -/
def registrationOrder : List Operation :=
  [ .clear, .ret, .sys, .jump, .call, .jumpOffset,
    .skipIfByte, .skipUnlessByte, .skipIfEqual, .skipUnlessEqual, .skipIfKey, .skipUnlessKey,
    .loadByte, .addByte, .copy, .bitOr, .bitAnd, .bitXor, .add, .sub, .shiftRight, .subFrom,
    .shiftLeft, .random,
    .loadIndex, .addIndex, .loadGlyph, .storeDecimal, .storeRegisters, .loadRegisters,
    .draw, .waitKey, .readDelay, .setDelay, .setSound ]

/-- Registers standard handlers one by one up to the first refusal, and keeps those before it. -/
def registerEach (table : DispatchTable) :
    List Operation → Except DispatchError Unit × DispatchTable
  | [] => (.ok (), table)
  | operation :: rest =>
    match table.register (some operation) operation.perform with
    | (.ok (), extended) => extended.registerEach rest
    | (.error refusal, left) => (.error refusal, left)

/-- Registers the standard handlers of all operations. -/
def registerAll (table : DispatchTable) : Except DispatchError Unit × DispatchTable :=
  table.registerEach registrationOrder

/-- The operations that have no handler. -/
def missing (table : DispatchTable) : List Operation :=
  Operation.all.filter fun operation => (table.handler? (some operation)).isNone

/-- Closes the table, if every operation has a handler. -/
def freeze (table : DispatchTable) : Except DispatchError Unit × DispatchTable :=
  if table.missing.isEmpty then (.ok (), { table with frozen := true })
  else (.error (.unhandled table.missing), table)

/-- The closed table of the standard handlers. -/
def standard : DispatchTable :=
  ⟨registrationOrder.map fun operation => (some operation, operation.perform), true⟩

/-- Executes a word by the handler of its operation, which takes one cycle. -/
def execute (table : DispatchTable) (word : Word) (registers : Registers) (board : Board) :
    Outcome :=
  -- A word without instruction is not looked up.
  match word.operation?.bind fun operation => table.handler? (some operation) with
  | none => (.error (.unknownOpcode word (some registers.pc)), board)
  | some handler =>
    let (result, left) := handler word.fields registers board
    (result.map Registers.countCycle, left)

/-- The standard table has the standard handler for every operation. -/
theorem handler?_standard (operation : Operation) :
    standard.handler? (some operation) = some operation.perform := by
  -- The registration order names each operation.
  cases operation <;> rfl

/-- The standard table executes every word as the instruction set says. -/
theorem execute_standard (word : Word) (registers : Registers) (board : Board) :
    standard.execute word registers board = Chip8.execute word registers board := by
  unfold execute Chip8.execute
  cases word.operation? with
  | none => rfl
  | some operation => simp only [Option.bind_some, handler?_standard]

end DispatchTable

end Chip8
