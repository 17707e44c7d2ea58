import Chip8.Keypad
import Chip8.Proofs.Refusal

/-! What key presses do to a keypad, whose queue holds the latest presses that count. -/

namespace Chip8

namespace Keypad

variable {keypad pressed : Keypad} {number : Int}

/-! ### Keys and their numbers -/

/-- The number of a key names it. -/
@[simp]
theorem key_val (key : Key) : Keypad.key key.val = .ok key := by
  -- Every number below sixteen names a key.
  have bounded : (key.val : Int) < 16 := by omega
  simp [Keypad.key, bounded]

/-- A number that names a key is the number of that key. -/
theorem key_eq_ok {named : Key} (names : Keypad.key number = .ok named) : number = named.val := by
  unfold Keypad.key at names
  split at names
  · -- A number in the range is not negative, so nothing is cut off.
    obtain rfl := Except.ok.inj names
    show number = (number.toNat : Int)
    omega
  · cases names

/-- Any other number is refused. -/
theorem key_outside (outside : ¬(0 ≤ number ∧ number < 16)) :
    Keypad.key number = .error (.invalidKey number) :=
  dif_neg outside

/-- The held keys are listed by looking at each key. -/
theorem mem_heldKeys {key : Key} : key ∈ keypad.heldKeys ↔ keypad.held.get key = true := by
  simp only [heldKeys, List.mem_filter, List.mem_finRange, true_and]
  rfl

/-- No key is held while all are up. -/
theorem held_replicate (key : Key) : (Vector.replicate 16 false).get key = false := by
  revert key
  decide

/-- A key that goes down or up leaves the others where they were. -/
theorem held_set (held : Vector Bool 16) (key other : Key) (down : Bool) :
    (held.set key down key.isLt).get other = if other = key then down else held.get other := by
  -- Keys are told apart by their places.
  show (held.set key.val down key.isLt)[other.val] = if other = key then down else held[other.val]
  rw [Vector.getElem_set]
  simp only [Fin.ext_iff, eq_comm]

/-! ### The queue -/

/-- One press is added to a queue, and no queue grows beyond the capacity. -/
@[simp]
theorem enqueue_length (queue : List Key) (key : Key) :
    (enqueue queue key).length = min (queue.length + 1) capacity := by
  -- What is too much is dropped from the front, after the key was put behind.
  simp only [enqueue, List.length_drop, List.length_append, List.length_singleton]
  omega

/-- A refused press leaves the keypad as it was. -/
theorem press_atomic (keypad : Keypad) (number : Int) : Atomic keypad (keypad.press number) := by
  intro refusal left refused
  unfold press at refused
  split at refused
  · exact (Prod.mk.inj refused).2.symm
  · -- The number of a key is not refused, whether the key is held or not.
    split at refused <;> cases refused

/-- A refused release leaves the keypad as it was. -/
theorem release_atomic (keypad : Keypad) (number : Int) :
    Atomic keypad (keypad.release number) := by
  intro refusal left refused
  unfold release at refused
  split at refused
  · exact (Prod.mk.inj refused).2.symm
  · cases refused

/-- A press keeps the queue within its capacity. -/
theorem press_queue_length (within : keypad.queue.length ≤ capacity) (number : Int) :
    (keypad.press number).2.queue.length ≤ capacity := by
  unfold press
  split
  · exact within
  · split
    · -- A key that is held already does nothing.
      exact within
    · rw [enqueue_length]
      exact Nat.min_le_right _ _

/-- A release does not touch the queue. -/
theorem release_queue (keypad : Keypad) (number : Int) :
    (keypad.release number).2.queue = keypad.queue := by
  -- Only the state of the key is written.
  unfold release
  split <;> rfl

/-! ### Presses that count -/

/-- The key of a press that finds its key up; a press of a held key counts for nothing. -/
def freshKey? (keypad : Keypad) (number : Int) : Option Key :=
  match key number with
  | .ok key => if keypad.held.get key then none else some key
  | .error _ => none

/-- A key is fresh while it is up. -/
theorem freshKey?_val (keypad : Keypad) (key : Key) :
    keypad.freshKey? key.val = if keypad.held.get key then none else some key := by
  rw [freshKey?, key_val]

/-- A fresh press is made by the number of its key. -/
theorem number_of_fresh {pressed : Key} (fresh : keypad.freshKey? number = some pressed) :
    number = pressed.val := by
  -- Only a key that was found and is not yet held is fresh.
  unfold freshKey? at fresh
  split at fresh
  · rename_i found names
    split at fresh
    · cases fresh
    · obtain rfl := Option.some.inj fresh
      exact key_eq_ok names
  · cases fresh

/-- The most recent presses that a queue has room for, oldest first. -/
def latest (presses : List Key) : List Key :=
  presses.drop (presses.length - capacity)

/-- A fresh press holds its key and is queued. -/
theorem press_of_fresh {pressed : Key} (fresh : keypad.freshKey? number = some pressed) :
    keypad.press number =
      (.ok (), ⟨keypad.held.set pressed true pressed.isLt, enqueue keypad.queue pressed⟩) := by
  unfold freshKey? at fresh
  split at fresh
  · rename_i found named
    split at fresh
    · cases fresh
    · -- The number names a key that is up.
      rename_i up
      cases fresh
      simp only [press, named]
      exact if_neg up
  · cases fresh

/-- A press that is not fresh changes nothing, whether it is taken or refused. -/
theorem press_of_stale (stale : keypad.freshKey? number = none) :
    (keypad.press number).2 = keypad := by
  -- A number without a key is refused, and any other is that of a held key.
  unfold press
  unfold freshKey? at stale
  cases named : key number with
  | error fault => rfl
  | ok found =>
    simp only [named] at stale ⊢
    split at stale
    · rename_i held
      exact congrArg Prod.snd (if_pos held)
    · cases stale

/-- A queue of the latest presses holds the latest presses after one more. -/
theorem enqueue_latest (presses : List Key) (key : Key) :
    enqueue (latest presses) key = latest (presses ++ [key]) := by
  -- Either nothing is dropped on both sides, or one press more is dropped on the right.
  unfold enqueue latest
  rw [← List.drop_append_of_le_length (by omega), List.drop_drop]
  simp only [List.length_drop, List.length_append, List.length_singleton]
  congr 1
  omega

/-- If any press was made, then the latest ones begin with the oldest that is remembered. -/
theorem latest_ne_nil {presses : List Key} (some_press : presses ≠ []) : latest presses ≠ [] := by
  -- The capacity leaves room for at least one press.
  have positive := List.length_pos_iff.mpr some_press
  rw [latest, Ne, List.drop_eq_nil_iff, capacity]
  omega

end Keypad

end Chip8
