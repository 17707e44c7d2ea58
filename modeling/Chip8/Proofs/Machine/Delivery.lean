import Chip8.Proofs.Execution.Beside
import Chip8.Proofs.Machine.KeyWait
import Chip8.Proofs.Machine.Timeless

/-!
The keys that end waits, and the presses that they come from.

A machine hands over the keys that are pressed in the order of the presses, but loses those that it
has no use for.
If it is stepped between any two presses, and is only given presses it waits for, it loses none.
-/

namespace Chip8

/-- The key that a step has stored, if the step ended a wait. -/
def StepResult.delivered? : StepResult → Option Key
  | .completed { activity := .keyDelivered _ _ key, .. } => some key
  | _ => none

/-- A step that ends a wait with a key has stored the key in the register of the wait. -/
def Fills (outcome : StepResult × Machine) : Prop :=
  ∀ entry word x key, outcome.1 = .completed entry → entry.activity = .keyDelivered word x key →
    entry.before.keyRegister = some x ∧ outcome.2.registers.get x = .ok key.val

/-- The key that an event delivers if it is a step. -/
def Event.delivered? (event : Event) (machine : Machine) : Option Key :=
  (event.outcome? machine).bind fun outcome => outcome.1.delivered?

/-- Between two presses of a sequence, or from an untaken one to the next, there is a step. -/
def spaced (untaken : Bool) : List Event → Bool
  | [] => true
  | .press _ :: rest => !untaken && spaced true rest
  | .step :: rest => spaced false rest
  | _ :: rest => spaced untaken rest

namespace Machine

/-- The keys that end waits in a sequence of events, in order. -/
def deliveries (machine : Machine) (events : List Event) : List Key :=
  (machine.results events).filterMap StepResult.delivered?

variable {config : Config} {machine : Machine}

/-- The keys of a sequence are that of its first event and those of what follows. -/
theorem deliveries_cons (machine : Machine) (event : Event) (rest : List Event) :
    machine.deliveries (event :: rest) =
      (event.delivered? machine).toList ++ (event.apply machine).deliveries rest := by
  -- At most one key comes of an event.
  rw [deliveries, results_cons, List.filterMap_append, Event.delivered?]
  cases event.outcome? machine with
  | none => rfl
  | some outcome =>
    cases delivered : outcome.1.delivered? <;> simp [deliveries, delivered]

/-! ### What a step does to the keypad -/

/-- Taking note of a failed cycle delivers no key, and leaves the board as it is. -/
theorem fail_delivers (machine : Machine) (activity : Activity) (fault : Fault) :
    (machine.fail activity fault).1.delivered? = none ∧
      (machine.fail activity fault).2.board = machine.board := by
  unfold fail
  split <;> exact ⟨rfl, rfl⟩

/-- A running machine delivers no key, and does nothing to the keypad but to empty the queue. -/
theorem executeNext_delivers (machine : Machine) :
    machine.executeNext.1.delivered? = none ∧
      (machine.executeNext.2.board.keypad = machine.board.keypad ∨
        machine.executeNext.2.board.keypad = machine.board.keypad.flush) := by
  cases fetched : machine.board.memory.readWord machine.registers.pc with
  | error fault =>
    obtain ⟨none, board⟩ := machine.fail_delivers .unfetched fault
    rw [executeNext_of_unfetched fetched]
    exact ⟨none, .inl (by rw [board])⟩
  | ok word =>
    -- The word has left its mark on the keypad, whether it was refused or not.
    have keypad := (execute_board word machine.registers machine.board).2
    rw [executeNext_of_fetched fetched]
    rcases outcome : execute word machine.registers machine.board with ⟨fault | result, left⟩
    · obtain ⟨none, board⟩ := { machine with board := left }.fail_delivers (.executed word) fault
      rw [outcome] at keypad
      exact ⟨none, by rw [land, board]; exact keypad⟩
    · rw [outcome] at keypad
      exact ⟨rfl, keypad⟩

/-- What a step does to the keypad, and which key it delivers. -/
inductive Polls (machine : Machine) : Prop where
  /-- No key is delivered, and the queue is kept or emptied. -/
  | nothing (none : machine.step.1.delivered? = none)
    (unready : machine.registers.mode = .awaitingKey → machine.board.keypad.queue = [])
    (keypad : machine.step.2.board.keypad = machine.board.keypad ∨
      machine.step.2.board.keypad = machine.board.keypad.flush)
  /-- The oldest press in the queue is delivered to the register of a wait, the others are kept. -/
  | press (x : Nibble) (entry : TraceEntry) (word : Word) (key : Key) (rest : List Key)
    (waiting : machine.registers.mode = .awaitingKey)
    (queued : machine.board.keypad.queue = key :: rest)
    (completed : machine.step.1 = .completed entry)
    (activity : entry.activity = .keyDelivered word x.val key)
    (wait : entry.before.keyRegister = some (x.val : Int))
    (filled : machine.step.2.registers.get x.val = .ok (key.val : Int))
    (keypad : machine.step.2.board.keypad = { machine.board.keypad with queue := rest })

/-- A completed cycle that was ended by a key delivers it. -/
theorem delivered_of_activity {result : StepResult} {entry : TraceEntry} {word : Word} {x : Int}
    {key : Key} (completed : result = .completed entry)
    (activity : entry.activity = .keyDelivered word x key) : result.delivered? = some key := by
  obtain ⟨cycle, pc, _, before, after, fault⟩ := entry
  subst completed activity
  rfl

/-- A step of a sound machine delivers the oldest press to a wait, or nothing. -/
theorem polls (sound : machine.Sound config) : machine.Polls := by
  cases mode : machine.registers.mode with
  | halted =>
    have step : machine.step = (.refused .halted, machine) := by simp only [step, mode]
    exact .nothing (by rw [step]; rfl) (fun waiting => by simp [mode] at waiting)
      (.inl (by rw [step]))
  | running =>
    have step : machine.step = machine.executeNext := by simp only [step, mode]
    obtain ⟨none, keypad⟩ := machine.executeNext_delivers
    exact .nothing (by rw [step, none]) (fun waiting => by simp [mode] at waiting)
      (by rwa [step])
  | awaitingKey =>
    cases queued : machine.board.keypad.queue with
    | nil =>
      have step := step_of_empty mode queued
      exact .nothing (by rw [step]; rfl) (fun _ => queued) (.inl (by rw [step]))
    | cons key rest =>
      -- A wait has a register to fill and an address to go on from.
      obtain ⟨fetchable, x, register⟩ := sound.waits.waiting mode
      have full := sound.registers.toFull
      obtain ⟨word, polled⟩ :=
        pollKey_press full register fetchable queued
      have step : machine.step = machine.pollKey := by simp only [step, mode]
      rw [polled] at step
      refine .press x _ word key rest mode queued (by rw [step]) rfl register ?_ (by rw [step]; rfl)
      -- The register is one of the sixteen, and a key is a byte.
      have inside : x.val < machine.registers.v.length := by
        rw [full.general]
        exact x.isLt
      have byte : (key.val : Int) % 256 = key.val := by omega
      rw [step, Registers.get, Registers.place_nibble, ok_bind, Registers.peek]
      simp [record, filled, Registers.countCycle, Registers.advance, Registers.advanceBy,
        Registers.resume, inside, byte]

/-- A step neither presses nor releases a key. -/
theorem step_held (sound : machine.Sound config) :
    machine.step.2.board.keypad.held = machine.board.keypad.held := by
  -- What a step makes of a keypad differs in its queue only.
  cases polls sound with
  | nothing _ _ keypad => rcases keypad with same | flushed <;> simp [*, Keypad.flush]
  | press _ _ _ _ _ _ _ _ _ _ _ keypad => rw [keypad]

/-- A step that delivers a key has stored it in the register of the wait. -/
theorem step_fills (sound : machine.Sound config) : Fills machine.step := by
  -- A cycle that was ended by a key delivers it, so the step has taken a press.
  intro entry word x key completed activity
  cases polls sound with
  | nothing none =>
    rw [delivered_of_activity completed activity] at none
    cases none
  | press place found _ taken _ _ _ ended stored wait filled _ =>
    obtain rfl := StepResult.completed.inj (completed.symm.trans ended)
    obtain ⟨-, rfl, rfl⟩ := Activity.keyDelivered.inj (activity.symm.trans stored)
    exact ⟨wait, filled⟩

/-- All steps of a sequence store the keys that they deliver. -/
theorem course_fills (sound : machine.Sound config) (events : List Event) :
    ∀ outcome ∈ machine.course events, Fills outcome := by
  -- The invariant holds at each step.
  induction events generalizing machine with
  | nil => exact fun _ listed => nomatch listed
  | cons event rest ih =>
    refine List.forall_mem_append.mpr ⟨fun outcome listed => ?_, ih (sound.apply event)⟩
    by_cases other : event = .step
    · subst other
      obtain rfl := List.mem_singleton.mp listed
      exact step_fills sound
    · simp [Event.outcome?_of_ne_step machine other] at listed

/-! ### Presses that are handed over -/

/-- What an event delivers and what is queued behind it come of the queue and of its press. -/
theorem apply_ordered (sound : machine.Sound config) {event : Event} (play : event.isPlay = true) :
    ((event.delivered? machine).toList ++ (event.apply machine).board.keypad.queue).Sublist
      (machine.board.keypad.queue ++ (event.freshKey? machine).toList) := by
  by_cases other : event = .step
  · subst other
    have delivered : Event.step.delivered? machine = machine.step.1.delivered? := rfl
    have apply : Event.step.apply machine = machine.step.2 := rfl
    have fresh : Event.step.freshKey? machine = none := rfl
    rw [delivered, apply, fresh, Option.toList_none, List.append_nil]
    cases polls sound with
    | nothing none _ keypad =>
      rcases keypad with same | flushed
      · rw [none, same]
        exact .refl _
      · rw [none, flushed]
        exact List.nil_sublist _
    | press _ _ _ _ _ _ queued completed activity _ _ keypad =>
      rw [delivered_of_activity completed activity, keypad, queued]
      exact .refl _
  · -- Nothing is delivered, and a full queue drops its oldest press for a fresh one.
    have delivered : event.delivered? machine = none := by
      rw [Event.delivered?, Event.outcome?_of_ne_step machine other, Option.bind_none]
    rw [delivered, Option.toList_none, List.nil_append, (apply_unstepped play other machine).1]
    cases event.freshKey? machine with
    | none => simp
    | some key => exact List.drop_sublist _ _

/-- Keys are delivered in the order in which they are pressed, and none of them twice. -/
theorem deliveries_ordered (sound : machine.Sound config) {events : List Event}
    (plays : ∀ event ∈ events, event.isPlay = true) :
    (machine.deliveries events ++ (machine.after events).board.keypad.queue).Sublist
      (machine.board.keypad.queue ++ machine.freshPresses events) := by
  -- What the first event leaves in the queue is before what is pressed later.
  induction events generalizing machine with
  | nil => simp [deliveries, freshPresses]
  | cons event rest ih =>
    obtain ⟨play, plays⟩ := List.forall_mem_cons.mp plays
    have first := (apply_ordered sound play).append_right ((event.apply machine).freshPresses rest)
    have behind := (ih (sound.apply event) plays).append_left (event.delivered? machine).toList
    rw [List.append_assoc, List.append_assoc] at first
    rw [deliveries_cons, freshPresses, after_cons, List.append_assoc]
    exact behind.trans first

/-! ### Presses that are not lost -/

/-- Every fresh press in a sequence finds the machine waiting for a key. -/
def Asked (machine : Machine) : List Event → Prop
  | [] => True
  | event :: rest =>
    (event.freshKey? machine ≠ none → machine.registers.mode = .awaitingKey) ∧
      (event.apply machine).Asked rest

/-- Presses find the machine waiting in a sequence if they do so in both of its parts. -/
theorem Asked.append {first second : List Event} (asked : machine.Asked first)
    (later : (machine.after first).Asked second) : machine.Asked (first ++ second) := by
  -- Whether a press finds the machine waiting is decided where it happens.
  induction first generalizing machine with
  | nil => exact later
  | cons event rest ih => exact ⟨asked.1, ih asked.2 later⟩

/-- A machine has at most one press in its queue, which it waits for. -/
structure Ready (untaken : Bool) (machine : Machine) : Prop where
  few : machine.board.keypad.queue.length ≤ 1
  /-- A press is queued only while the machine waits. -/
  waiting : machine.board.keypad.queue ≠ [] → machine.registers.mode = .awaitingKey
  /-- No press is queued since the last one was taken. -/
  taken : untaken = false → machine.board.keypad.queue = []

/-- A machine without a queued press is ready. -/
theorem Ready.of_empty (empty : machine.board.keypad.queue = []) (untaken : Bool) :
    machine.Ready untaken :=
  ⟨by simp [empty], fun some => absurd empty some, fun _ => empty⟩

/-- A step of a ready machine delivers all that is queued. -/
theorem Ready.step {untaken : Bool} (ready : machine.Ready untaken)
    (sound : machine.Sound config) :
    machine.step.1.delivered?.toList = machine.board.keypad.queue ∧
      machine.step.2.board.keypad.queue = [] := by
  cases polls sound with
  | nothing none unready keypad =>
    -- A queued press would be waited for and delivered.
    have empty : machine.board.keypad.queue = [] :=
      Decidable.byContradiction fun some => some (unready (ready.waiting some))
    rw [none, empty]
    rcases keypad with same | flushed
    · exact ⟨rfl, by rw [same, empty]⟩
    · exact ⟨rfl, by rw [flushed]; rfl⟩
  | press _ _ _ _ rest _ queued completed activity _ _ keypad =>
    have few := ready.few
    rw [queued] at few
    obtain rfl : rest = [] := List.length_eq_zero_iff.mp (by simpa using few)
    rw [delivered_of_activity completed activity, keypad, queued]
    exact ⟨rfl, rfl⟩

/-- An event without a fresh press that is no step keeps a machine ready. -/
theorem Ready.keeps {untaken : Bool} (ready : machine.Ready untaken) {event : Event}
    (queue : (event.apply machine).board.keypad.queue = machine.board.keypad.queue)
    (mode : (event.apply machine).registers.mode = machine.registers.mode) :
    (event.apply machine).Ready untaken := by
  refine ⟨queue ▸ ready.few, fun some => ?_, fun taken => queue.trans (ready.taken taken)⟩
  exact mode.trans (ready.waiting (queue ▸ some))

/-- A ready machine loses nothing in an event and stays ready, if presses are apart. -/
theorem Ready.apply {untaken : Bool} (ready : machine.Ready untaken)
    (sound : machine.Sound config) {event : Event} (play : event.isPlay = true) {rest : List Event}
    (asks : event.freshKey? machine ≠ none → machine.registers.mode = .awaitingKey)
    (apart : spaced untaken (event :: rest) = true) :
    ∃ later, (event.apply machine).Ready later ∧ spaced later rest = true ∧
      (event.delivered? machine).toList ++ (event.apply machine).board.keypad.queue =
        machine.board.keypad.queue ++ (event.freshKey? machine).toList := by
  by_cases other : event = .step
  · -- All that was queued is delivered, and the next press will find an empty queue.
    subst other
    obtain ⟨all, empty⟩ := ready.step sound
    refine ⟨false, Ready.of_empty empty false, apart, ?_⟩
    rw [show Event.step.apply machine = machine.step.2 from rfl, empty, List.append_nil]
    exact all.trans (List.append_nil _).symm
  · obtain ⟨queue, mode⟩ := apply_unstepped play other machine
    rw [Event.delivered?, Event.outcome?_of_ne_step machine other, Option.bind_none,
      Option.toList_none, List.nil_append, queue]
    cases event with
    | press number =>
      simp only [spaced, Bool.and_eq_true, Bool.not_eq_true'] at apart
      have empty := ready.taken apart.1
      rw [empty] at queue ⊢
      cases fresh : (Event.press number).freshKey? machine with
      | none =>
        rw [fresh] at queue
        exact ⟨true, Ready.of_empty queue true, apart.2, rfl⟩
      | some key =>
        -- The press is the only one in the queue, and is waited for.
        rw [fresh] at asks queue
        have waiting := mode.trans (asks nofun)
        refine ⟨true, ⟨?_, fun _ => waiting, nofun⟩, apart.2, rfl⟩
        rw [queue]
        exact Nat.le_refl 1
    | step => exact absurd rfl other
    | _ => exact ⟨untaken, ready.keeps queue mode, apart, (List.append_nil _).symm⟩

/-- No press is lost that the machine waits for, if it is stepped between any two presses. -/
theorem deliveries_spaced (sound : machine.Sound config) {events : List Event} {untaken : Bool}
    (plays : ∀ event ∈ events, event.isPlay = true) (asked : machine.Asked events)
    (ready : machine.Ready untaken) (apart : spaced untaken events = true) :
    machine.deliveries events ++ (machine.after events).board.keypad.queue =
        machine.board.keypad.queue ++ machine.freshPresses events ∧
      (machine.after events).board.keypad.queue.length ≤ 1 := by
  -- As before, the queue behind the first event is where the others begin.
  induction events generalizing machine untaken with
  | nil => exact ⟨by simp [deliveries, freshPresses], ready.few⟩
  | cons event rest ih =>
    obtain ⟨play, plays⟩ := List.forall_mem_cons.mp plays
    obtain ⟨later, next, apart, first⟩ := ready.apply sound play asked.1 apart
    obtain ⟨behind, few⟩ := ih (sound.apply event) plays asked.2 next apart
    refine ⟨?_, few⟩
    rw [deliveries_cons, freshPresses, after_cons, List.append_assoc, behind,
      ← List.append_assoc, first, List.append_assoc]

end Machine

end Chip8
