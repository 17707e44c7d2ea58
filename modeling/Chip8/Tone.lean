/-! The tone output: a signal that is on or off, and what is remembered about it. -/

namespace Chip8

/-- Something that takes note of commands to sound or to be silent. -/
class ToneSink (τ : Type) where
  /-- Takes note of one command. -/
  setActive : Bool → τ → τ

/-- Whether the tone sounds, and how often that has changed. -/
structure Tone where
  active : Bool := false
  transitions : Nat := 0
  deriving DecidableEq

/-- A command to keep the tone as it is counts for nothing. -/
instance : ToneSink Tone where
  setActive active tone :=
    if active = tone.active then tone else ⟨active, tone.transitions + 1⟩

/-- Every command that a tone output was given. -/
structure ToneLog where
  /-- The commands, newest first. -/
  recent : List Bool := []
  deriving DecidableEq

/-- The commands, oldest first. -/
def ToneLog.commands (log : ToneLog) : List Bool :=
  log.recent.reverse

/-- A log keeps each command. -/
instance : ToneSink ToneLog where
  setActive active log := ⟨active :: log.recent⟩

end Chip8
