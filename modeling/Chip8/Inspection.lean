import Chip8.Machine.Report

/-! A bounded headless run of a source text, shown as four texts. -/

namespace Chip8

/-- What an inspection shows. -/
structure Inspection where
  summary : String
  trace : String := ""
  registers : String := ""
  display : String := ""

namespace Inspection

/-- Most trace entries that are shown. -/
def maxEntries : Nat := 100

/-- Lines joined by newlines. -/
def joined (lines : List String) : String :=
  "\n".intercalate lines

/-- An inspection that shows nothing but why there was no run. -/
def failed (reason : String) : Inspection :=
  { summary := s!"Error: {reason}" }

/-- A truth value as the summary spells it. -/
def answer (value : Bool) : String :=
  if value then "Yes" else "No"

/-- The summary of a run and of the fault that ended it. -/
def summaryOf (machine : Machine) (fault : Option Fault) : String :=
  let registers := machine.registers
  joined (
    ["EXECUTION SUMMARY", ruler 40 '=', s!"Cycles: {registers.cycleCount}",
      s!"Halted: {answer registers.halted}", s!"Awaiting key: {answer registers.awaitingKey}",
      s!"Timer ticks: {machine.timers.ticks}", s!"Errors: {machine.errors.length}"] ++
    match fault with
    | none => []
    | some fault => ["", s!"Runtime: {fault.message}"])

/-- The changes of an entry as an inspection names them. -/
def changesOf (entry : TraceEntry) : List String :=
  let registers := entry.changedRegisters.map fun (place, before, after) =>
    s!"{Registers.nameOf place}: {before} -> {after}"
  let index :=
    if entry.before.i = entry.after.i then []
    else [s!"I: 0x{hexText 3 entry.before.i} -> 0x{hexText 3 entry.after.i}"]
  registers ++ index

/-- The lines of a trace entry, the first of which is blank. -/
def entryLines (entry : TraceEntry) : List String :=
  let changes := changesOf entry
  ["", s!"--- Cycle {entry.cycle} (PC=0x{hexText 3 entry.pc}) ---",
    s!"Instruction: {entry.wordText}  {entry.instruction}"] ++
  (entry.operationKey?.toList.map fun key => s!"Decoded Key: {key}") ++
  (entry.error?.toList.map fun error => s!"Error:       {error}") ++
  if changes.isEmpty then [] else ["Changes:     " ++ ", ".intercalate changes]

/-- The first entries of a trace, and how many more there are. -/
def traceOf (trace : List TraceEntry) : String :=
  joined (["EXECUTION TRACE", ruler 60 '='] ++ (trace.take maxEntries).flatMap entryLines ++
    if trace.length ≤ maxEntries then []
    else ["", s!"... ({trace.length - maxEntries} more entries)"])

/-- A decimal number with blanks in front of it up to a width of five. -/
def padded (value : Int) : String :=
  let text := toString value
  String.ofList (List.replicate (5 - text.length) ' ') ++ text

/-- The final registers, in which a star marks those that are not zero. -/
def registersOf (registers : Registers) : String :=
  joined (
    ["FINAL REGISTERS", ruler 30 '='] ++
    (registers.named.map fun (name, value) =>
      let marker := if value = 0 then "" else " *"
      s!"  {name}: {padded value}  (0x{hexText 2 value}){marker}") ++
    ["", s!"  I:  0x{hexText 3 registers.i}", s!"  PC: 0x{hexText 3 registers.pc}",
      s!"  DT: {registers.delayTimer}  ST: {registers.soundTimer}"])

/-- What a machine shows after a run. -/
def ofMachine (machine : Machine) (fault : Option Fault) : Inspection :=
  { summary := summaryOf machine fault
    trace := traceOf machine.trace
    registers := registersOf machine.registers
    display := machine.board.display.render "#" "." }

/-- Assembles and runs a source text under some settings, and shows what came of it. -/
def ofSource (source : List Char) (settings : Settings) (chance : ByteSource) : Inspection :=
  if source.all isBlank then failed "No program provided"
  else
    match settings.check with
    | .error error => failed error.message
    | .ok config =>
      match (Machine.new config chance).loadSource source with
      | (.error error, _) => failed error.message
      | (.ok (), machine) =>
        match machine.run config.maxCycles with
        | (.error fault, left) => ofMachine left (some fault)
        | (.ok (), left) => ofMachine left none

end Inspection

end Chip8
