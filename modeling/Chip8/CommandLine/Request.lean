import Chip8.CommandLine.Flag
import Chip8.CommandLine.KeyList
import Chip8.Config
import Chip8.Text.Decimal

/-! What a command line asks for. -/

namespace Chip8

/-- Where the program comes from. -/
inductive Source where
  | rom (path : List Char)
  | program (path : List Char)
  | inlineText (text : List Char)
  deriving DecidableEq

/-- Whether the path or the text of a source is empty. -/
def Source.isEmpty : Source → Bool
  | .rom text | .program text | .inlineText text => text.isEmpty

/-- Whether two sources are given by the same flag. -/
def Source.sameFlag : Source → Source → Bool
  | .rom _, .rom _ | .program _, .program _ | .inlineText _, .inlineText _ => true
  | _, _ => false

/-- The values of all flags, before they are looked at together. -/
structure Options where
  source : Option Source := none
  settings : Settings := {}
  keys : List Char := []
  realtime : Bool := false
  duration : Option Float := none
  trace : Bool := false
  quiet : Bool := false
  showDisplay : Bool := false

namespace Options

/-- A source given by another flag than an earlier one is a conflict, and by the same flag wins. -/
def withSource (options : Options) (source : Source) : Except UsageError Options :=
  match options.source with
  | none => .ok { options with source := some source }
  | some earlier =>
    if earlier.sameFlag source then .ok { options with source := some source }
    else .error .conflictingSources

/-- A value that must be readable in some way. -/
def readValue {α : Type} (setting : Setting) (value : Option α) : Except UsageError α :=
  match value with
  | some value => .ok value
  | none => .error (.badValue setting.flag setting.value)

/-- An integer with blanks around it. -/
def integer? (text : List Char) : Option Int :=
  decimalInteger? (trimNumber text)

/-- The levels at which a log may be kept. -/
def logLevels : List String :=
  ["DEBUG", "INFO", "WARNING", "ERROR"]

/-- The options after one more setting. -/
def apply (options : Options) (setting : Setting) : Except UsageError Options :=
  let settings := options.settings
  match setting.flag with
  | .help => .error .helpRequested
  | .rom => options.withSource (.rom setting.value)
  | .program => options.withSource (.program setting.value)
  | .inlineSource => options.withSource (.inlineText setting.value)
  | .mode => do
    let mode ← readValue setting (DisplayMode.ofName? (String.ofList setting.value))
    return { options with settings := { settings with displayMode := mode.name } }
  | .maxCycles => do
    let maxCycles ← readValue setting (integer? setting.value)
    return { options with settings := { settings with maxCycles } }
  | .seed => do
    let seed ← readValue setting (integer? setting.value)
    return { options with settings := { settings with seed := some seed } }
  | .keys => .ok { options with keys := setting.value }
  | .noIdleHalt => .ok { options with settings := { settings with haltOnIdleLoop := false } }
  | .realtime => .ok { options with realtime := true }
  | .instructionRate => do
    let rate ← readValue setting (float? setting.value)
    return { options with settings := { settings with instructionsPerSecond := rate } }
  | .duration => do
    let duration ← readValue setting (float? setting.value)
    return { options with duration := some duration }
  | .trace => .ok { options with trace := true }
  | .quiet => .ok { options with quiet := true }
  | .showDisplay => .ok { options with showDisplay := true }
  | .logLevel => do
    let _ ← readValue setting (logLevels.find? (· == String.ofList setting.value))
    return options

end Options

/-- What a well-formed command line asks for. -/
structure Request where
  source : Source
  keys : List Key
  config : Config
  realtime : Bool
  duration : Option Float
  trace : Bool
  quiet : Bool
  showDisplay : Bool

namespace Request

/-- Looks at all options together, and reads the key list. -/
def ofOptions (options : Options) : Except UsageError Request := do
  let source ←
    match options.source.filter fun source => !source.isEmpty with
    | some source => pure source
    | none => throw .missingSource
  let keys ← (parseKeys options.keys).mapError fun error => .rejected error.message
  let config ← options.settings.check.mapError fun error => .rejected error.message
  return {
    source, keys, config
    realtime := options.realtime
    duration := options.duration
    trace := options.trace
    quiet := options.quiet
    showDisplay := options.showDisplay }

/-- The request of a command line. -/
def ofTexts (texts : List (List Char)) : Except UsageError Request := do
  let settings ← Setting.ofTexts texts
  ofOptions (← settings.foldlM Options.apply {})

end Request

end Chip8
