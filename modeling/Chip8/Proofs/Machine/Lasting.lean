import Chip8.Proofs.Machine.Sequence

/-!
Properties that last over the history of a machine.

A property that loads establish, that steps keep, and that looks at no keypad, no timer and no
request to stop lasts over every history in which the host does not write to memory; and over every
history, if it does not look at memory either.
-/

namespace Chip8

/-- Uses by which the host itself changes memory. -/
def Event.isWrite : Event → Bool
  | .write .. | .writeBlock .. | .fill .. => true
  | _ => false

namespace Machine

/-- A property of sound machines that is established by loads and kept by steps and beside them. -/
structure Lasting (config : Config) (property : Machine → Prop) : Prop where
  /-- A loaded machine has the property. -/
  load : ∀ (machine : Machine) image left,
    machine.loadImage image = (.ok (), left) → property left
  /-- A step keeps the property, however it ends. -/
  step : ∀ machine : Machine, machine.Sound config → property machine → property machine.step.2
  /-- Keypad, timers and requests to stop have no part in the property. -/
  aside : ∀ (machine : Machine) keypad delayTimer soundTimer timers stopRequested,
    property machine → property { machine.withKeypad keypad with
      registers := { machine.registers with delayTimer, soundTimer }
      timers, stopRequested }

variable {config : Config} {property : Machine → Prop} {machine : Machine} {event : Event}

/-- What restarts a machine loads an image, or is refused and leaves the machine as it was. -/
theorem apply_restart (restarts : event.restarts = true) (machine : Machine) :
    event.apply machine = machine ∨
      ∃ image, machine.loadImage image = (.ok (), event.apply machine) := by
  -- Being the machine or a loaded one is a property that a refusal keeps.
  let kept (left : Machine) : Prop :=
    left = machine ∨ ∃ image, machine.loadImage image = (.ok (), left)
  have images : ∀ image, kept (machine.loadImage image).2 := fun image =>
    (machine.loadImage_atomic image).keeps (.inl rfl) fun left done => .inr ⟨image, done⟩
  cases event with
  | loadImage image => exact images image
  | reset => exact images machine.program
  | loadSource source =>
    have texts : kept (machine.loadSource source).2 :=
      (machine.loadSource_atomic source).keeps (.inl rfl) fun left done =>
        .inr (loadSource_done done)
    exact texts
  | _ => cases restarts

namespace Lasting

/-- A lasting property of sound machines is kept by steps and ticks. -/
theorem stable (lasting : Lasting config property) :
    Stable fun machine => machine.Sound config ∧ property machine where
  -- A countdown and a driver change only what lies aside of the program.
  step machine := by
    rintro ⟨sound, kept⟩
    exact ⟨sound.step, lasting.step machine sound kept⟩
  countdown machine := by
    rintro ⟨sound, kept⟩
    exact ⟨(Sound.stable config).countdown machine sound,
      lasting.aside machine machine.board.keypad _ _ machine.timers machine.stopRequested kept⟩
  driver machine timers stopRequested rate := by
    rintro ⟨sound, kept⟩
    exact ⟨(Sound.stable config).driver machine timers stopRequested rate sound,
      lasting.aside machine machine.board.keypad _ _ timers stopRequested kept⟩

/-- Every event keeps a lasting property, unless it writes to a memory that is looked at. -/
theorem apply (lasting : Lasting config property) (sound : machine.Sound config)
    (kept : property machine)
    (writes : event.isWrite = true → ∀ memory, property (machine.withMemory memory)) :
    property (event.apply machine) := by
  -- An event starts over, is aside from the program, or is a step, a run or a host write.
  cases restarts : event.restarts with
  | true =>
    rcases apply_restart restarts machine with same | ⟨image, loaded⟩
    · rwa [same]
    · exact lasting.load machine image _ loaded
  | false =>
    cases aside : event.isAside with
    | true =>
      obtain ⟨keypad, delay, tone, timers, asked, left⟩ := apply_aside aside machine
      rw [left]
      exact lasting.aside machine keypad delay tone timers asked kept
    | false =>
      cases event with
      | step => exact lasting.step machine sound kept
      | run limit => exact (lasting.stable.run limit ⟨sound, kept⟩).2
      | write | writeBlock | fill => exact writes rfl _
      | loadImage | loadSource | reset => cases restarts
      | _ => cases aside

/-- A history keeps a lasting property, if its writes do. -/
theorem evolves {allowed : Event → Prop} {first last : Machine} (lasting : Lasting config property)
    (writes : ∀ event, allowed event → event.isWrite = true →
      ∀ (machine : Machine) memory, property machine → property (machine.withMemory memory))
    (history : Evolves allowed first last) (sound : first.Sound config) (kept : property first) :
    property last := by
  -- Soundness goes along with the property, as a step needs it.
  refine (history.keeps lasting.stable ?_ ⟨sound, kept⟩).2
  rintro event may machine ⟨sound, kept⟩
  exact ⟨sound.apply event, lasting.apply sound kept fun written memory =>
    writes event may written machine memory kept⟩

end Lasting

end Machine

end Chip8
