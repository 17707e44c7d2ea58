import Chip8.Fault

/-!
The sixteen-key keypad: which keys are held, and the presses nobody has taken yet.

Presses are queued, so a key that goes down and up between two polls is not lost.
-/

namespace Chip8

/-- One of the sixteen keys, named by a hexadecimal digit. -/
abbrev Key := Nibble

/-- Held keys, and untaken presses with the oldest first. -/
structure Keypad where
  held : Vector Bool 16
  queue : List Key
  deriving DecidableEq

namespace Keypad

/-- Most presses that are kept. -/
def capacity : Nat := 16

/-- No key is held and no press is queued. -/
def idle : Keypad :=
  ⟨Vector.replicate 16 false, []⟩

/-- The key that carries a number. -/
def key (number : Int) : Except Fault Key :=
  if bounded : 0 ≤ number ∧ number < 16 then .ok ⟨number.toNat, by omega⟩
  else .error (.invalidKey number)

/-- The held keys in ascending order. -/
def heldKeys (keypad : Keypad) : List Key :=
  (List.finRange 16).filter fun key => keypad.held[key]

/-- Appends a press to a queue, which drops its oldest press beyond the capacity. -/
def enqueue (queue : List Key) (key : Key) : List Key :=
  (queue ++ [key]).drop (queue.length + 1 - capacity)

/-- A key goes down; a key that is already held does nothing. -/
def press (keypad : Keypad) (number : Int) : Except Fault Unit × Keypad :=
  match key number with
  | .error fault => (.error fault, keypad)
  | .ok key =>
    if keypad.held[key] then (.ok (), keypad)
    else (.ok (), ⟨keypad.held.set key true, enqueue keypad.queue key⟩)

/-- A key goes up. -/
def release (keypad : Keypad) (number : Int) : Except Fault Unit × Keypad :=
  match key number with
  | .error fault => (.error fault, keypad)
  | .ok key => (.ok (), { keypad with held := keypad.held.set key false })

/-- All keys go up. -/
def releaseAll (keypad : Keypad) : Keypad :=
  { keypad with held := Vector.replicate 16 false }

/-- Whether a key is held, where only the low four bits of its number count. -/
def isHeld (keypad : Keypad) (number : Int) : Bool :=
  keypad.held[Nibble.ofInt number]

/-- The oldest untaken press if there is one, and the keypad without it. -/
def takePress (keypad : Keypad) : Option Key × Keypad :=
  match keypad.queue with
  | [] => (none, keypad)
  | key :: rest => (some key, { keypad with queue := rest })

/-- Forgets all untaken presses, while held keys stay held. -/
def flush (keypad : Keypad) : Keypad :=
  { keypad with queue := [] }

end Keypad

end Chip8
