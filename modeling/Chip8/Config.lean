import Chip8.Display

/-! The settings of a machine, and which of them a machine accepts. -/

namespace Chip8

/-- Settings as a host asks for them. -/
structure Settings where
  instructionsPerSecond : Float := 700.0
  timerRate : Float := 60.0
  displayMode : String := "64x32"
  /-- Seed of the random bytes. -/
  seed : Option Int := none
  /-- Most cycles of a headless run. -/
  maxCycles : Int := 10000
  /-- Number of most recent trace entries that are kept. -/
  traceLimit : Int := 1000
  entryPoint : Int := 512
  /-- A jump to its own address halts the machine. -/
  haltOnIdleLoop : Bool := true

/-- Why settings were refused. -/
inductive SettingsError where
  | instructionRate
  | timerRate
  | displayMode (name : String)
  | negativeLimit
  deriving DecidableEq

/-- The sentence that reports a refusal. -/
def SettingsError.message : SettingsError → String
  | .instructionRate => "instructions_per_second must be positive"
  | .timerRate => "timer_hz must be positive"
  | .displayMode name => s!"Unsupported display mode: {name}"
  | .negativeLimit => "max_cycles and trace_limit must be non-negative"

/-- Settings that a machine accepts. -/
structure Config where
  instructionsPerSecond : Float
  timerRate : Float
  displayMode : DisplayMode
  seed : Option Int
  maxCycles : Nat
  traceLimit : Nat
  entryPoint : Int
  haltOnIdleLoop : Bool

/-- A rate must not be zero or less. -/
def isRate (value : Float) : Bool :=
  !(value ≤ 0.0)

/-- Accepts settings, or names the first that is refused. -/
def Settings.check (settings : Settings) : Except SettingsError Config :=
  if !isRate settings.instructionsPerSecond then .error .instructionRate
  else if !isRate settings.timerRate then .error .timerRate
  else
    match DisplayMode.ofName? settings.displayMode with
    | none => .error (.displayMode settings.displayMode)
    | some displayMode =>
      if settings.maxCycles < 0 ∨ settings.traceLimit < 0 then .error .negativeLimit
      else .ok
        { instructionsPerSecond := settings.instructionsPerSecond
          timerRate := settings.timerRate
          displayMode
          seed := settings.seed
          maxCycles := settings.maxCycles.toNat
          traceLimit := settings.traceLimit.toNat
          entryPoint := settings.entryPoint
          haltOnIdleLoop := settings.haltOnIdleLoop }

end Chip8
