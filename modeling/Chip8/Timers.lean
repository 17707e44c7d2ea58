import Chip8.Registers
import Chip8.Tone

/-!
The driver of the delay and sound timers, which turns elapsed seconds into whole ticks.

The tone follows the sound timer whenever the driver looks at it.
-/

namespace Chip8

/-- The whole part of a double, toward zero; only a finite double has one. -/
def wholePart (value : Float) : Except Fault Int :=
  let bits := value.toBits.toNat
  let exponent := (bits >>> 52) % 2048
  let fraction := bits % (1 <<< 52)
  if exponent = 2047 then .error (if fraction = 0 then .infiniteTime else .undefinedTime)
  else
    -- The value is the significand times two to the power of the scale.
    let significand := if exponent = 0 then fraction else fraction + (1 <<< 52)
    let scale : Int := (max exponent 1 : Nat) - 1075
    let magnitude : Nat :=
      if 0 ≤ scale then significand <<< scale.toNat else significand >>> (-scale).toNat
    .ok (if bits < 1 <<< 63 then (magnitude : Int) else -magnitude)

/-- Tick rate, ticks so far, seconds not yet turned into ticks, and the tone output. -/
structure Timers (τ : Type) where
  /-- Ticks per second. -/
  rate : Float
  tone : τ
  ticks : Nat := 0
  /-- Seconds that are still short of a tick. -/
  remainder : Float := 0.0
  /-- A thread of its own ticks in the background. -/
  background : Bool := false

namespace Timers

variable {τ : Type} [ToneSink τ]

/-- Seconds between two ticks. -/
def period (timers : Timers τ) : Float :=
  1.0 / timers.rate

/-- Tells the tone output to sound or to be silent. -/
def setTone (timers : Timers τ) (active : Bool) : Timers τ :=
  { timers with tone := ToneSink.setActive active timers.tone }

/-- Makes the tone sound exactly while the sound timer has not run out. -/
def syncTone (timers : Timers τ) (registers : Registers) : Timers τ :=
  timers.setTone (0 < registers.soundTimer)

/-- Counts both timers down by one. -/
def tick (timers : Timers τ) (registers : Registers) : Registers × Timers τ :=
  let ticked := registers.tickTimers
  (ticked, { timers with ticks := timers.ticks + 1 }.syncTone ticked)

/-- A number of ticks. -/
def tickMany (timers : Timers τ) (registers : Registers) : Nat → Registers × Timers τ
  | 0 => (registers, timers)
  | count + 1 =>
    let (ticked, left) := timers.tick registers
    left.tickMany ticked count

/--
Turns elapsed seconds into whole ticks and keeps the rest for the next call.

A negative number of ticks is kept account of, though nothing ticks.
-/
def advance (timers : Timers τ) (registers : Registers) (elapsed : Float) :
    Except Fault Int × Registers × Timers τ :=
  let total := timers.remainder + elapsed
  match wholePart (total * timers.rate) with
  | .error fault => (.error fault, registers, { timers with remainder := total })
  | .ok count =>
    let kept := { timers with remainder := total - Float.ofInt count / timers.rate }
    (.ok count, kept.tickMany registers count.toNat)

/-- Forgets the ticks so far and the seconds short of a tick. -/
def reset (timers : Timers τ) : Timers τ :=
  { timers with ticks := 0, remainder := 0.0 }

/-- Starts the thread that ticks in the background. -/
def start (timers : Timers τ) : Timers τ :=
  { timers with background := true }

/-- Stops the thread that ticks in the background. -/
def stop (timers : Timers τ) : Timers τ :=
  { timers with background := false }

end Timers

end Chip8
