import Chip8.CommandLine.Session

/-! The command line program: sessions on real files and a real clock. -/

namespace Chip8

namespace CommandLine

/-- Seconds on a clock that never goes back. -/
def seconds : IO Float := do
  return (← IO.monoNanosNow).toFloat / 1000000000.0

/-- Sleeps for no less than a number of seconds. -/
def rest (duration : Float) : IO Unit :=
  IO.sleep (duration * 1000.0).ceil.toUInt32

/-- The bytes of a file, if it can be read. -/
def readFile? (path : List Char) : IO (Option (List Byte)) := do
  try
    let content ← IO.FS.readBinFile (String.ofList path)
    return some (content.toList.map fun byte => Byte.ofInt byte.toNat)
  catch _ =>
    return none

/-- The real clock, and sleeps each of which first taps the key that the machine waits for. -/
def surroundings : Surroundings (StateT (List Key) IO) Empty where
  clock := seconds
  ticks := return 0
  sleep duration machine := do
    let keys ← get
    let (keys, machine) := (Session.feedKey keys machine).getD (keys, machine)
    set keys
    rest duration
    return (.ok (), machine)

/-- The turns of a realtime run on the real clock, however long it lasts. -/
partial def runTurns (pace : Pace) (schedule : Schedule) (machine : Machine) :
    StateT (List Key) IO (Exit Empty × Machine) := do
  match ← machine.turn surroundings pace schedule with
  | (.error exit, machine) => return (exit, machine)
  | (.ok schedule, machine) => runTurns pace schedule machine

/-- A realtime run on the real clock. -/
def runClocked (request : Request) (machine : Machine) : IO (RunEnd × Machine) := do
  let pace : Pace := { duration := request.duration }
  let (exit, left) ← (machine.realtime surroundings pace (runTurns pace)).run' request.keys
  return (Session.endOfRealtime exit, left)

/-- Random bytes that nobody has chosen. -/
def chance : IO ByteSource := do
  return .seeded (← IO.rand 0 0xFFFFFFFF : Nat)

/-- Prints the lines of a result and gives its exit code. -/
def finish (result : Session.Result) : IO UInt32 := do
  IO.print (ofLines result.lines)
  if let some complaint := result.complaint then IO.eprintln s!"chip8: {complaint}"
  return UInt32.ofNat result.exitCode

/-- The session that a request asks for. -/
def serve (request : Request) : IO UInt32 := do
  let content ←
    match Session.pathOf? request.source with
    | some path => readFile? path
    | none => pure none
  let machine := Machine.new request.config (← chance)
  match Session.load machine request.source fun _ => content with
  | .error result => finish result
  | .ok machine =>
    let (ending, left) ←
      if request.realtime then runClocked request machine
      else pure (Session.runHeadless machine request.keys)
    finish (Session.conclude request ending left)

end CommandLine

end Chip8

/-- Runs the session that the command line asks for. -/
def main (arguments : List String) : IO UInt32 := do
  match Chip8.Request.ofTexts (arguments.map String.toList) with
  | .ok request => Chip8.CommandLine.serve request
  | .error error => Chip8.CommandLine.finish (Chip8.Session.refuse error)
