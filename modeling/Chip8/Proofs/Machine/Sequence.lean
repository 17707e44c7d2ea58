import Chip8.Proofs.Machine.Invariant
import Chip8.Proofs.Timers

/-!
Sequences of events, and how the steps in them end.

What holds of every interleaving of steps, ticks and key presses holds of every sequence in which
they may stand.
-/

namespace Chip8

/-- What goes on while a loaded program is used: steps, ticks and uses of the keypad. -/
def Event.isLive : Event → Bool
  | .step | .tick | .press _ | .release _ | .releaseAll => true
  | _ => false

namespace Event

/-- Uses of the keypad. -/
def isKey : Event → Bool
  | .press _ | .release _ | .releaseAll => true
  | _ => false

/-- Ticks, and elapsed seconds that are turned into ticks. -/
def isTiming : Event → Bool
  | .tick | .advance _ => true
  | _ => false

/-- Steps. -/
def isStep : Event → Bool
  | .step => true
  | _ => false

/-- Uses of the keypad, ticks, and requests to stop: all that goes on beside the steps of a loop. -/
def isAside : Event → Bool
  | .press _ | .release _ | .releaseAll | .tick | .advance _ | .stop => true
  | _ => false

/-- Steps, uses of the keypad and ticks. -/
def isPlay (event : Event) : Bool :=
  event.isStep || event.isKey || event.isTiming

end Event

/-- How an event ends if it is a step, and the machine that the step leaves. -/
def Event.outcome? (event : Event) (machine : Machine) : Option (StepResult × Machine) :=
  match event with
  | .step => some machine.step
  | _ => none

/-- Only a step has an outcome. -/
theorem Event.outcome?_of_ne_step {event : Event} (machine : Machine) (other : event ≠ .step) :
    event.outcome? machine = none := by
  -- Every other event is told apart by its constructor.
  cases event with
  | step => exact absurd rfl other
  | _ => rfl

/-- There is one kind of step. -/
theorem Event.eq_step {event : Event} (step : event.isStep = true) : event = .step := by
  cases event with
  | step => rfl
  | _ => cases step

namespace Machine

/-- The machine after a sequence of events. -/
def after (machine : Machine) : List Event → Machine
  | [] => machine
  | event :: rest => (event.apply machine).after rest

/-- How the steps in a sequence of events end, each with the machine that it leaves, in order. -/
def course (machine : Machine) : List Event → List (StepResult × Machine)
  | [] => []
  | event :: rest => (event.outcome? machine).toList ++ (event.apply machine).course rest

/-- How the steps in a sequence of events end, in order. -/
def results (machine : Machine) (events : List Event) : List StepResult :=
  (machine.course events).map Prod.fst

/-- Something holds of each event of a sequence and of the machine that it finds. -/
def Along (holds : Machine → Event → Prop) (machine : Machine) : List Event → Prop
  | [] => True
  | event :: rest => holds machine event ∧ (event.apply machine).Along holds rest

/-- What can be computed of every machine and event can be computed along a sequence. -/
def decideAlong (holds : Machine → Event → Prop) [∀ found event, Decidable (holds found event)]
    (machine : Machine) : (events : List Event) → Decidable (machine.Along holds events)
  | [] => isTrue trivial
  | event :: rest =>
    have := decideAlong holds (event.apply machine) rest
    inferInstanceAs (Decidable (_ ∧ _))

instance (holds : Machine → Event → Prop) [∀ found event, Decidable (holds found event)]
    (machine : Machine) (events : List Event) : Decidable (machine.Along holds events) :=
  decideAlong holds machine events

variable {config : Config} {machine : Machine}

/-- Nothing happens in an empty sequence. -/
@[simp]
theorem after_nil (machine : Machine) : machine.after [] = machine :=
  rfl

/-- A sequence begins with its first event. -/
@[simp]
theorem after_cons (machine : Machine) (event : Event) (rest : List Event) :
    machine.after (event :: rest) = (event.apply machine).after rest :=
  rfl

/-- A sequence goes on where its beginning ends. -/
theorem after_append (machine : Machine) (first second : List Event) :
    machine.after (first ++ second) = (machine.after first).after second := by
  -- The machine is handed along the beginning, event by event.
  induction first generalizing machine with
  | nil => rfl
  | cons event rest ih => exact ih (event.apply machine)

/-- A sequence of ticks counts both timers down by their number. -/
theorem after_ticks (machine : Machine) (count : Nat) :
    machine.after (List.replicate count .tick) = machine.tickMany count := by
  induction count generalizing machine with
  | zero => rfl
  | succ count ih => exact ih machine.tick

/-- No step is in an empty sequence. -/
@[simp]
theorem results_nil (machine : Machine) : machine.results [] = [] :=
  rfl

/-- The first event is a step that ends in some way, or says nothing about steps. -/
@[simp]
theorem results_cons (machine : Machine) (event : Event) (rest : List Event) :
    machine.results (event :: rest) =
      ((event.outcome? machine).map Prod.fst).toList ++ (event.apply machine).results rest := by
  -- An event has one outcome at most.
  simp only [results, course, List.map_append]
  cases event.outcome? machine <;> rfl

/-- The steps of a sequence end as those of its beginning and then as those of what follows. -/
theorem results_append (machine : Machine) (first second : List Event) :
    machine.results (first ++ second) =
      machine.results first ++ (machine.after first).results second := by
  induction first generalizing machine with
  | nil => rfl
  | cons event rest ih =>
    rw [List.cons_append, results_cons, ih, results_cons, after_cons, List.append_assoc]

/-- What holds along a sequence holds of its first event and along the rest. -/
theorem along_cons {holds : Machine → Event → Prop} (event : Event) (rest : List Event) :
    machine.Along holds (event :: rest) ↔
      holds machine event ∧ (event.apply machine).Along holds rest :=
  Iff.rfl

/-- What holds along a sequence holds along its beginning and along what follows. -/
theorem along_append {holds : Machine → Event → Prop} (first second : List Event) :
    machine.Along holds (first ++ second) ↔
      machine.Along holds first ∧ (machine.after first).Along holds second := by
  -- The second part is asked of the machine that the first leaves.
  induction first generalizing machine with
  | nil => exact ⟨fun along => ⟨trivial, along⟩, And.right⟩
  | cons event rest ih =>
    rw [List.cons_append, along_cons, ih, along_cons, and_assoc, after_cons]

/-- What follows from what holds along a sequence holds along it too. -/
theorem Along.mono {holds implied : Machine → Event → Prop} {events : List Event}
    (along : machine.Along holds events)
    (implies : ∀ found event, holds found event → implied found event) :
    machine.Along implied events := by
  induction events generalizing machine with
  | nil => trivial
  | cons event rest ih => exact ⟨implies machine event along.1, ih along.2⟩

/-- What holds of the events of a sequence for every machine holds along the sequence. -/
theorem along_of_forall {holds : Machine → Event → Prop} {events : List Event}
    (always : ∀ event ∈ events, ∀ found, holds found event) : machine.Along holds events := by
  induction events generalizing machine with
  | nil => trivial
  | cons event rest ih =>
    obtain ⟨first, later⟩ := List.forall_mem_cons.mp always
    exact ⟨first machine, ih later⟩

/-! ### Keys -/

/-- A press moves the keypad only. -/
theorem apply_press (machine : Machine) (number : Int) :
    (Event.press number).apply machine =
      machine.withKeypad (machine.board.keypad.press number).2 :=
  rfl

/-- A release moves the keypad only. -/
theorem apply_release (machine : Machine) (number : Int) :
    (Event.release number).apply machine =
      machine.withKeypad (machine.board.keypad.release number).2 :=
  rfl

/-- A press is queued if it finds its key up, and is otherwise forgotten. -/
theorem queue_of_press (keypad : Keypad) (number : Int) :
    (keypad.press number).2.queue =
      (keypad.freshKey? number).toList.foldl Keypad.enqueue keypad.queue := by
  -- A press that is not fresh leaves the whole keypad as it is.
  cases fresh : keypad.freshKey? number with
  | some key => rw [Keypad.press_of_fresh fresh]; rfl
  | none => rw [Keypad.press_of_stale fresh]; rfl

/-- What goes on beside the steps of a loop reaches keypad, timers and the request to stop only. -/
theorem apply_aside {event : Event} (aside : event.isAside = true) (machine : Machine) :
    ∃ keypad delayTimer soundTimer timers stopRequested,
      event.apply machine = { machine.withKeypad keypad with
        registers := { machine.registers with delayTimer, soundTimer }
        timers, stopRequested } := by
  cases event with
  | tick => exact ⟨machine.board.keypad, _, _, _, _, rfl⟩
  -- Whole ticks change no register but the two timers.
  | advance seconds =>
    refine ⟨machine.board.keypad, (machine.timers.advance machine.registers seconds).2.1.delayTimer,
      (machine.timers.advance machine.registers seconds).2.1.soundTimer,
      (machine.timers.advance machine.registers seconds).2.2, machine.stopRequested, ?_⟩
    rw [← Timers.advance_registers]
    rfl
  | press number => exact ⟨(machine.board.keypad.press number).2, _, _, _, _, rfl⟩
  | release number => exact ⟨(machine.board.keypad.release number).2, _, _, _, _, rfl⟩
  | releaseAll => exact ⟨machine.board.keypad.releaseAll, _, _, _, _, rfl⟩
  | stop => exact ⟨machine.board.keypad, _, _, _, _, rfl⟩
  | _ => cases aside

/-- A sequence of events keeps the invariant. -/
theorem Sound.after (sound : machine.Sound config) (events : List Event) :
    (machine.after events).Sound config := by
  -- Each event keeps it for the events behind.
  induction events generalizing machine with
  | nil => exact sound
  | cons event rest ih => exact ih (sound.apply event)

/-- A new machine is reachable. -/
theorem Reachable.new (config : Config) (chance : ByteSource) :
    (Machine.new config chance).Reachable config :=
  ⟨_, .refl _⟩

/-- The standard machine is reachable. -/
theorem Reachable.standard : Machine.standard.Reachable .standard :=
  .new .standard (.seeded 0)

/-- A sequence of events leads from a reachable machine to a reachable one. -/
theorem Reachable.after (reachable : machine.Reachable config) (events : List Event) :
    (machine.after events).Reachable config := by
  -- The history is made longer by one event after the other.
  induction events generalizing machine with
  | nil => exact reachable
  | cons event rest ih =>
    obtain ⟨random, history⟩ := reachable
    exact ih ⟨random, .event event trivial history⟩

end Machine

end Chip8
