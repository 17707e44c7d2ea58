import Chip8.Machine.Basic

/-! Reports on a machine: the printed trace, and the summary of a run. -/

namespace Chip8

namespace TraceEntry

/-- The changes of an entry as the printed trace names them. -/
def changes (entry : TraceEntry) : List String :=
  let registers := entry.changedRegisters.map fun (place, before, after) =>
    s!"{Registers.nameOf place}: {hexText 2 before} -> {hexText 2 after}"
  let others : List (String × (Registers → Int)) :=
    [("I", Registers.i), ("SP", Registers.sp), ("DELAY_TIMER", Registers.delayTimer),
      ("SOUND_TIMER", Registers.soundTimer)]
  let changed := others.filter fun (_, field) => field entry.before != field entry.after
  registers ++ changed.map fun (name, field) =>
    s!"{name}: {field entry.before} -> {field entry.after}"

/-- How the printed trace shows the outcome of an entry. -/
def status (entry : TraceEntry) : String :=
  match entry.error? with
  | none => "OK"
  | some error => s!"ERROR: {error}"

/-- The lines of an entry in the printed trace, the first of which is blank. -/
def lines (entry : TraceEntry) : List String :=
  let changes := entry.changes
  ["", s!"[Cycle {entry.cycle}] {entry.status}",
    s!"  {hexText 3 entry.pc}: {entry.wordText}  {entry.instruction}"] ++
    if changes.isEmpty then [] else ["  Changes: " ++ ", ".intercalate changes]

end TraceEntry

/-- A line of one character. -/
def ruler (width : Nat) (char : Char) : String :=
  String.ofList (List.replicate width char)

/-- Text of lines, each of which ends with a newline. -/
def ofLines (lines : List String) : String :=
  String.join (lines.map (· ++ "\n"))

namespace Machine

/-- The printed trace, followed by the final registers. -/
def traceReport (machine : Machine) : List String :=
  let rule := ruler 70 '='
  [rule, "CHIP-8 EXECUTION TRACE", rule] ++ machine.trace.flatMap TraceEntry.lines ++
    ["", rule, "FINAL STATE", rule, s!"  {machine.registers.toText}"]

/-- The sentences of all faults in the trace. -/
def errors (machine : Machine) : List String :=
  machine.trace.filterMap TraceEntry.error?

end Machine

end Chip8
