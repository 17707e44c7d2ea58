import Chip8.CommandLine.Request
import Chip8.Machine.Realtime
import Chip8.Machine.Report

/-!
A session of the command line: load a program, run it, print what came of it.

Files are given by a function from their paths, and realtime runs follow a clock that only sleeping
moves.
-/

namespace Chip8

/-- What a session leaves to its caller. -/
structure Session.Result where
  exitCode : Nat
  /-- The lines of the session's output. -/
  lines : List String
  /-- What the user is told beside the output. -/
  complaint : Option String := none

/-- How the run of a loaded program ended. -/
inductive RunEnd where
  /-- The run came to an end by itself. -/
  | finished
  /-- The run was ended by a fault or by the cycle limit. -/
  | faulted (fault : Fault)
  /-- The user broke the run off. -/
  | interrupted
  /-- A time was computed that no clock shows. -/
  | broken (fault : Fault)

namespace Session

/-! ### Loading -/

/-- Text in which every way to end a line is a newline. -/
def plainNewlines : List Char → List Char
  | [] => []
  | '\r' :: '\n' :: rest => '\n' :: plainNewlines rest
  | '\r' :: rest => '\n' :: plainNewlines rest
  | char :: rest => char :: plainNewlines rest

/-- The text that bytes encode. -/
def textOf? (bytes : List Byte) : Option (List Char) :=
  (String.fromUTF8? (ByteArray.mk (bytes.map fun byte => UInt8.ofNat byte.val).toArray)).map
    fun text => plainNewlines text.toList

/-- Inline source with a newline in place of each semicolon. -/
def inlineLines (text : List Char) : List Char :=
  text.map fun char => if char = ';' then '\n' else char

/-- The line that announces a loaded program. -/
def announcement : Source → String
  | .rom path => s!"Loading ROM: {String.ofList path}"
  | .program path => s!"Loading program: {String.ofList path}"
  | .inlineText _ => "Running inline assembly"

/-- A session that ends before anything is run. -/
def failed (line : String) : Result :=
  ⟨1, [line], none⟩

/-- A session in which loading was refused. -/
def loadFailed (message : String) : Result :=
  failed s!"Load error: {message}"

/-- The machine that was loaded, or the result of a session in which loading was refused. -/
def loadedOr {ε : Type} (message : ε → String) : Except ε Unit × Machine → Except Result Machine
  | (.ok (), machine) => .ok machine
  | (.error refusal, _) => .error (loadFailed (message refusal))

/-- Loads the program of a source, or gives the result of a session that cannot. -/
def load (machine : Machine) (source : Source) (file : List Char → Option (List Byte)) :
    Except Result Machine :=
  match source with
  | .rom path =>
    match file path with
    | none => .error (failed s!"Error: ROM file not found: {String.ofList path}")
    | some image => loadedOr Fault.message (machine.loadImage image)
  | .program path =>
    match file path with
    | none => .error (failed s!"Error: Program file not found: {String.ofList path}")
    | some bytes =>
      match textOf? bytes with
      | none => .error ⟨1, [], some s!"{String.ofList path} is not text"⟩
      | some text => loadedOr LoadError.message (machine.loadSource text)
  | .inlineText text => loadedOr LoadError.message (machine.loadSource (inlineLines text))

/-! ### Running -/

/-- A key goes down and up again, neither of which is refused. -/
def tapKey (machine : Machine) (key : Key) : Machine :=
  ((machine.pressKey key.val).2.releaseKey key.val).2

/-- Taps the next key of a list if the machine waits for one. -/
def feedKey (keys : List Key) (machine : Machine) : Option (List Key × Machine) :=
  match keys with
  | [] => none
  | key :: rest => if machine.registers.awaitingKey then some (rest, tapKey machine key) else none

/-- Runs, and runs again after each key that the machine waits for. -/
def runHeadless (machine : Machine) (keys : List Key) : RunEnd × Machine :=
  match machine.run machine.config.maxCycles with
  | (.error fault, left) => (.faulted fault, left)
  | (.ok (), left) =>
    match keys with
    | [] => (.finished, left)
    | key :: rest =>
      if left.registers.awaitingKey then runHeadless (tapKey left key) rest else (.finished, left)

/-- The world of a realtime run whose clock only sleeping moves. -/
structure SleepClock where
  time : Float := 0.0
  /-- Sleeps that are left until the user breaks the run off. -/
  sleepsLeft : Nat
  /-- Keys that have not been tapped. -/
  keys : List Key

/-- Every sleep first taps a key that the machine waits for. -/
def sleepHost : Host SleepClock Unit where
  clock world := (world.time, world)
  sleep seconds world machine :=
    let (keys, machine) := (feedKey world.keys machine).getD (world.keys, machine)
    let world := { world with keys }
    match world.sleepsLeft with
    | 0 => (.error (), world, machine)
    | left + 1 => (.ok (), { world with time := world.time + seconds, sleepsLeft := left }, machine)

/-- The end that a fault puts to a run; a time that no clock shows breaks the session. -/
def endOf : Fault → RunEnd
  | .undefinedTime => .broken .undefinedTime
  | .infiniteTime => .broken .infiniteTime
  | fault => .faulted fault

/-- How a realtime run ended. -/
def endOfRealtime {ε : Type} : Exit ε → RunEnd
  | .returned _ => .finished
  | .faulted fault => endOf fault
  | .interrupted _ => .interrupted
  | .unfinished => .interrupted

/-- Runs by the sleep clock for at most some number of passes of the loop. -/
def runSleeping (request : Request) (machine : Machine) (maxSleeps passes : Nat) :
    RunEnd × Machine :=
  let pace : Pace := { duration := request.duration }
  let world : SleepClock := { sleepsLeft := maxSleeps, keys := request.keys }
  let (exit, _, left) := machine.runRealtime sleepHost pace passes world
  (endOfRealtime exit, left)

/-! ### Reporting -/

/-- A truth value as reports spell it. -/
def truthText (value : Bool) : String :=
  if value then "True" else "False"

/-- The registers as pairs of quoted names and values between braces. -/
def registersText (registers : Registers) : String :=
  let pairs := registers.named.map fun (name, value) => s!"{quotedText name}: {value}"
  "\x7b" ++ ", ".intercalate pairs ++ "\x7d"

/-- The lines between loading and running. -/
def openingLines (request : Request) : List String :=
  if request.quiet then []
  else
    [announcement request.source, ruler 60 '-', "Executing...", ruler 60 '-']

/-- The lines that sum up a run. -/
def summaryLines (machine : Machine) : List String :=
  let registers := machine.registers
  let errors := machine.errors
  ["", s!"Cycles: {registers.cycleCount}", s!"Halted: {truthText registers.halted}",
    s!"Awaiting key: {truthText registers.awaitingKey}",
    s!"PC: 0x{hexText 3 registers.pc}  I: 0x{hexText 3 registers.i}",
    s!"Registers: {registersText registers}"] ++
    if errors.isEmpty then []
    else ["Errors: [" ++ ", ".intercalate (errors.map quotedText) ++ "]"]

/-- The lines of a quiet session: the registers that are not zero. -/
def quietLines (machine : Machine) : List String :=
  (machine.registers.named.filter fun entry => entry.2 != 0).map fun (name, value) =>
    s!"{name}={value}"

/-- The line that reports how a run ended, if it is reported. -/
def endLines : RunEnd → List String
  | .faulted fault => [s!"Execution error: {fault.message}"]
  | _ => []

/-- The lines after a run. -/
def closingLines (request : Request) (machine : Machine) : List String :=
  let state :=
    if request.trace then machine.traceReport
    else if request.quiet then quietLines machine
    else summaryLines machine
  state ++ if request.showDisplay then ["", machine.board.display.render "#" "."] else []

/-- Success is a machine that has halted without a fault. -/
def exitCode (machine : Machine) : Nat :=
  if machine.registers.halted && machine.lastError.isNone then 0 else 1

/-- The result of a session whose run has ended. -/
def conclude (request : Request) (ending : RunEnd) (machine : Machine) : Result :=
  match ending with
  | .broken fault => ⟨1, openingLines request, some fault.message⟩
  | _ =>
    ⟨exitCode machine,
      openingLines request ++ endLines ending ++ closingLines request machine, none⟩

/-- The path of the file that a source names. -/
def pathOf? : Source → Option (List Char)
  | .rom path | .program path => some path
  | .inlineText _ => none

/-- The result of a command line that asks for no run; a usage text is not part of it. -/
def refuse : UsageError → Result
  | .helpRequested => ⟨0, [], none⟩
  | error => ⟨2, [], some error.message⟩

/-- A session on given files, in which a realtime run follows the sleep clock. -/
def simulate (file : List Char → Option (List Byte)) (chance : ByteSource) (maxSleeps passes : Nat)
    (texts : List (List Char)) : Result :=
  match Request.ofTexts texts with
  | .error error => refuse error
  | .ok request =>
    match load (.new request.config chance) request.source file with
    | .error result => result
    | .ok machine =>
      let (ending, left) :=
        if request.realtime then runSleeping request machine maxSleeps passes
        else runHeadless machine request.keys
      conclude request ending left

end Session

end Chip8
