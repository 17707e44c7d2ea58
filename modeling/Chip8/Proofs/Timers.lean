import Chip8.Timers

/-! What any number of ticks leaves as it was. -/

namespace Chip8.Timers

variable {τ : Type} [ToneSink τ]

/-- Ticks change nothing in a register file but the two timers. -/
theorem tickMany_registers (timers : Timers τ) (registers : Registers) (count : Nat) :
    (timers.tickMany registers count).1 = { registers with
      delayTimer := (timers.tickMany registers count).1.delayTimer
      soundTimer := (timers.tickMany registers count).1.soundTimer } := by
  -- Each tick counts both timers down, and hands on the rest.
  induction count generalizing timers registers with
  | zero => rfl
  | succ count ih => exact ih (timers.tick registers).2 registers.tickTimers

/-- Ticks leave timers alone that have run out. -/
theorem tickMany_idle (timers : Timers τ) {registers : Registers}
    (delay : registers.delayTimer = 0) (sound : registers.soundTimer = 0) (count : Nat) :
    (timers.tickMany registers count).1 = registers := by
  -- Counting down a timer at zero leaves it at zero.
  have still : registers.tickTimers = registers := by
    obtain ⟨v, i, pc, sp, stack, _, _, mode, keyRegister, cycleCount⟩ := registers
    subst delay sound
    rfl
  induction count generalizing timers with
  | zero => rfl
  | succ count ih =>
    show ((timers.tick registers).2.tickMany registers.tickTimers count).1 = registers
    rw [still, ih]

/-- Ticks do not change the rate. -/
theorem tickMany_rate (timers : Timers τ) (registers : Registers) (count : Nat) :
    (timers.tickMany registers count).2.rate = timers.rate := by
  induction count generalizing timers registers with
  | zero => rfl
  | succ count ih => exact ih (timers.tick registers).2 registers.tickTimers

/-- Seconds change nothing in a register file but the two timers. -/
theorem advance_registers (timers : Timers τ) (registers : Registers) (seconds : Float) :
    (timers.advance registers seconds).2.1 = { registers with
      delayTimer := (timers.advance registers seconds).2.1.delayTimer
      soundTimer := (timers.advance registers seconds).2.1.soundTimer } := by
  -- Nothing ticks if the seconds are no number of ticks.
  simp only [advance]
  split
  · rfl
  · exact tickMany_registers _ registers _

/-- Seconds do not change the rate. -/
theorem advance_rate (timers : Timers τ) (registers : Registers) (seconds : Float) :
    (timers.advance registers seconds).2.2.rate = timers.rate := by
  simp only [advance]
  split
  · rfl
  · exact tickMany_rate _ registers _

end Chip8.Timers
