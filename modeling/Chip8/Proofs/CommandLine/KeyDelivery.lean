import Chip8.Proofs.CommandLine.KeyPace
import Chip8.Proofs.Machine.Program

/-!
The key list of a command line session with a realtime run.

The keys of the list are tapped in order, each while the machine waits, but several of them may be
tapped in one wait if the machine is stepped more rarely than it sleeps; all but one are lost then.
This does not happen to a machine that takes an instruction in every period of its timers.
-/

namespace Chip8.Session

variable {config : Config} {machine : Machine}

/-! ### Taps -/

/-- Events in which the first keys of a list are tapped, each while the machine waits. -/
structure Feeds (keys : List Key) (machine : Machine) (events : List Event) (rest : List Key) :
    Prop where
  /-- The keys that are no longer in the list are those that go down. -/
  taps : keys = machine.freshPresses events ++ rest
  /-- A key goes down only while the machine waits. -/
  asked : machine.Asked events
  /-- No key stays down. -/
  up : (machine.after events).board.keypad.held = Keypad.idle.held

/-- No key is tapped if nothing happens. -/
theorem Feeds.nil {keys : List Key} (up : machine.board.keypad.held = Keypad.idle.held) :
    Feeds keys machine [] keys :=
  ⟨rfl, trivial, up⟩

/-- The keys that are tapped in a sequence are those of its beginning and those of what follows. -/
theorem Feeds.append {keys middle rest : List Key} {first second : List Event}
    (earlier : Feeds keys machine first middle)
    (later : Feeds middle (machine.after first) second rest) :
    Feeds keys machine (first ++ second) rest where
  -- What the first part has left of the keys is what the second one taps from.
  taps := by
    rw [Machine.freshPresses_append, List.append_assoc, ← later.taps, ← earlier.taps]
  asked := earlier.asked.append later.asked
  up := by
    rw [Machine.after_append]
    exact later.up

/-- No key is tapped in a step. -/
theorem feeds_step {keys : List Key} (sound : machine.Sound config)
    (up : machine.board.keypad.held = Keypad.idle.held) : Feeds keys machine [.step] keys :=
  ⟨rfl, ⟨fun fresh => absurd rfl fresh, trivial⟩, (Machine.step_held sound).trans up⟩

/-- No key is tapped while time goes by. -/
theorem feeds_timing {keys : List Key} {events : List Event}
    (up : machine.board.keypad.held = Keypad.idle.held)
    (timing : ∀ event ∈ events, event.isTiming = true) : Feeds keys machine events keys := by
  induction events generalizing machine with
  | nil => exact .nil up
  | cons event rest ih =>
    obtain ⟨first, later⟩ := List.forall_mem_cons.mp timing
    -- Neither ticks nor seconds turn to the keypad.
    have now : Feeds keys machine [event] keys := by
      cases event with
      | tick | advance => exact ⟨rfl, ⟨fun fresh => absurd rfl fresh, trivial⟩, up⟩
      | _ => cases first
    exact now.append (ih now.up later)

/-- No key is down behind a tap that began with all keys up. -/
theorem held_of_tap (key : Key) :
    (Keypad.idle.held.set key true key.isLt).set key false key.isLt = Keypad.idle.held := by
  decide +revert

/-- A key that goes down and up again while all keys are up is tapped. -/
theorem feeds_taps {rest : List Key} (key : Key)
    (up : machine.board.keypad.held = Keypad.idle.held)
    (waiting : machine.registers.mode = .awaitingKey) :
    Feeds (key :: rest) machine (taps key) rest := by
  -- The key is up before, so its press counts, and its release leaves all keys up again.
  have fresh : machine.board.keypad.freshKey? key.val = some key := by
    have idle : ¬Keypad.idle.held.get key = true := by decide +revert
    rw [Keypad.freshKey?, Keypad.key_val]
    simp only [up, if_neg idle]
  have press : ((Event.press key.val).apply machine).board.keypad.held =
      machine.board.keypad.held.set key true key.isLt := by
    rw [Machine.apply_press, Keypad.press_of_fresh fresh]
    rfl
  have release (pressed : Machine) : ((Event.release key.val).apply pressed).board.keypad.held =
      pressed.board.keypad.held.set key false key.isLt := by
    rw [Machine.apply_release, Keypad.release, Keypad.key_val]
    rfl
  refine ⟨?_, ⟨fun _ => waiting, fun fresh => absurd rfl fresh, trivial⟩, ?_⟩
  · rw [taps, Machine.freshPresses, Event.freshKey?, fresh]
    rfl
  · rw [taps, Machine.after_cons, Machine.after_cons, Machine.after_nil, release, press, up,
      held_of_tap]

/-- A sleep taps the next key of the list if the machine waits, and otherwise nothing. -/
theorem feeds_fed (keys : List Key) (up : machine.board.keypad.held = Keypad.idle.held) :
    Feeds keys machine (fed keys machine).2 (fed keys machine).1 := by
  -- Nothing happens without a key in the list or without a wait.
  unfold fed
  split
  · exact .nil up
  · split
    · rename_i key rest waiting
      exact feeds_taps key up (by simpa [Registers.awaitingKey] using waiting)
    · exact .nil up

/-- A sleep of a session is told by the keys that it feeds. -/
theorem feeds_sleep {seconds : Float} {world awake : SleepClock} {slept : Except Unit Unit}
    {events : List Event} (up : machine.board.keypad.held = Keypad.idle.held)
    (sleep : sleepScript.sleep seconds world machine = (slept, awake, events)) :
    Feeds world.keys machine events awake.keys := by
  -- Whether the user breaks the sleep off makes no difference to its tap.
  have feeds := feeds_fed world.keys up
  simp only [sleepScript] at sleep
  split at sleep <;> (cases sleep; exact feeds)

/-- No key is tapped in a pass up to its move. -/
theorem feeds_pass {pace : Pace} {schedule next : Schedule} {world later : SleepClock}
    {now : Float} {ticks : Nat} {verdict : Except Fault Move} {left : Machine}
    (sound : machine.Sound config) (up : machine.board.keypad.held = Keypad.idle.held)
    (look : sleepScript.host.look pace world = (now, ticks, later))
    (passed : (machine.tickMany ticks).pass pace schedule now = (verdict, next, left)) :
    Feeds world.keys machine (Machine.due pace schedule now ticks) later.keys ∧
      machine.after (Machine.due pace schedule now ticks) = left ∧ left.Sound config ∧
      left.board.keypad.held = Keypad.idle.held := by
  -- Looking at the clock leaves the list as it is.
  obtain ⟨-, rfl⟩ := look_eq look
  have feeds := @feeds_timing machine later.keys _ up (Machine.timing_due pace schedule now ticks)
  obtain rfl := Machine.after_due passed
  exact ⟨feeds, rfl, sound.after _, feeds.up⟩

/-- The keys that a realtime loop takes from the list are tapped while the machine waits. -/
theorem feeds_of_loops {pace : Pace} {schedule : Schedule} {world last : SleepClock}
    {final : Machine} {events : List Event} {exit : Exit Unit}
    (loops : Machine.Loops sleepScript pace schedule world machine events exit last final)
    (sound : machine.Sound config) (up : machine.board.keypad.held = Keypad.idle.held) :
    Feeds world.keys machine events last.keys := by
  -- Each pass begins with all keys up, and taps keys in its sleep only.
  induction loops with
  | unfinished | stopped => exact .nil up
  | timeless read passed | ended read passed => exact (feeds_pass sound up read passed).1
  | interrupted read passed slept =>
    obtain ⟨pass, rfl, -, up⟩ := feeds_pass sound up read passed
    exact pass.append (feeds_sleep up slept)
  | sleeping read passed slept _ ih =>
    obtain ⟨pass, rfl, sound, up⟩ := feeds_pass sound up read passed
    have sleep := feeds_sleep up slept
    exact pass.append (sleep.append (ih (sound.after _) sleep.up))
  | refused read passed _ =>
    obtain ⟨pass, rfl, sound, up⟩ := feeds_pass sound up read passed
    exact pass.append (feeds_step sound up)
  -- A step feeds no key, and leaves all keys as they are.
  | stepping read passed stepped _ ih =>
    obtain ⟨pass, rfl, sound, up⟩ := feeds_pass sound up read passed
    obtain rfl := congrArg Prod.snd stepped
    have rest := ih sound.step ((Machine.step_held sound).trans up)
    exact pass.append ((feeds_step sound up).append rest)

/-! ### Sessions -/

/-- A realtime run of a session on a loaded machine. -/
structure Run where
  request : Request
  machine : Machine
  /-- Sleeps until the user breaks the run off. -/
  maxSleeps : Nat
  /-- Most passes of the loop. -/
  passes : Nat

namespace Run

/-- The pace that the request sets. -/
def pace (run : Run) : Pace :=
  { duration := run.request.duration }

/-- No thread ticks in a session. -/
theorem pace_single (run : Run) : run.pace.background = false :=
  rfl

/-- The clock and the keys with which the run begins. -/
def clock (run : Run) : SleepClock :=
  { sleepsLeft := run.maxSleeps, keys := run.request.keys }

/-- The machine with which the loop begins. -/
def started (run : Run) : Machine :=
  run.machine.enterRealtime run.pace

/-- What happens in the run. -/
def events (run : Run) : List Event :=
  run.machine.realtimeJournal sleepScript run.pace run.passes run.clock

/-- The machine that is left. -/
def left (run : Run) : Machine :=
  (runSleeping run.request run.machine run.maxSleeps run.passes).2

/-- The keys that end waits, in order. -/
def delivered (run : Run) : List Key :=
  run.started.deliveries run.events

/-- The presses that are still queued at the end. -/
def queued (run : Run) : List Key :=
  run.left.board.keypad.queue

/-- The keys that have not been taken from the list. -/
def untapped (run : Run) : List Key :=
  (run.machine.runRealtime sleepHost run.pace run.passes run.clock).2.1.keys

end Run

/-- A session goes on with the machine that an attempt to load has left, unless it is refused. -/
theorem loadedOr_eq_ok {ε : Type} {message : ε → String} {attempt : Except ε Unit × Machine}
    {loaded : Machine} : loadedOr message attempt = .ok loaded ↔ attempt = (.ok (), loaded) := by
  rcases attempt with ⟨refusal | ⟨⟩, left⟩ <;> simp [loadedOr]

/-- What a session has loaded is a loaded image. -/
theorem load_done {source : Source} {file : List Char → Option (List Byte)} {loaded : Machine}
    (done : load machine source file = .ok loaded) :
    ∃ image, machine.loadImage image = (.ok (), loaded) := by
  -- A file may be missing or be no text, and texts are assembled before they are loaded.
  unfold load at done
  split at done
  · split at done
    · cases done
    · exact ⟨_, loadedOr_eq_ok.mp done⟩
  · split at done
    · cases done
    · split at done
      · cases done
      · exact Machine.loadSource_done (loadedOr_eq_ok.mp done)
  · exact Machine.loadSource_done (loadedOr_eq_ok.mp done)

namespace Run

variable {run : Run} {file : List Char → Option (List Byte)} {chance : ByteSource}

/-- The loop begins with a sound machine whose keypad is idle. -/
theorem started_sound
    (loaded : load (.new run.request.config chance) run.request.source file = .ok run.machine) :
    run.started.Sound run.request.config ∧ run.started.board.keypad = Keypad.idle := by
  -- A machine at power-on has an idle keypad, which loading does not touch.
  obtain ⟨image, done⟩ := load_done loaded
  obtain ⟨memory, -, same⟩ := Machine.loadImage_eq_ok.mp done
  have sound := (Machine.Reachable.new run.request.config chance).sound.loaded image memory
  rw [started, same]
  exact ⟨{ sound with }, rfl⟩

/-- The timers of the machine with which the loop begins tick at the rate of its settings. -/
theorem started_equipped
    (loaded : load (.new run.request.config chance) run.request.source file = .ok run.machine) :
    run.started.Equipped run.request.config := by
  -- The image was loaded before the start, and a load keeps the settings.
  obtain ⟨image, done⟩ := load_done loaded
  obtain ⟨⟨-, -, fits⟩, same⟩ := Machine.loadImage_done done
  rw [started, same]
  exact ⟨rfl, rfl, fits⟩

/-- The loop does what its events do, from the start of its clock, and then the tone is silent. -/
theorem loops (run : Run) :
    ∃ schedule exit, schedule.next = 0.0 ∧
      Machine.Loops sleepScript run.pace schedule run.clock run.started run.events exit
        (run.machine.runRealtime sleepHost run.pace run.passes run.clock).2.1
        (run.started.after run.events) ∧
      run.left = (run.started.after run.events).leaveRealtime run.pace := by
  -- The host of a session is the host of its script.
  obtain ⟨schedule, final, -, start, loops, left⟩ :=
    run.machine.runRealtime_loops sleepScript run.pace_single run.passes run.clock
  obtain rfl := loops.after_events
  rw [sleepScript_host] at loops left
  exact ⟨schedule, _, start, loops, left⟩

end Run

/--
The keys of a session's realtime run are delivered in order.

The run does to the loaded machine what its events do, and every step that ends a wait with a key
stores the key in the register of the wait.
The keys that end waits, and those still queued at the end, are among those that were taken from the
list, in the order of the list.
If the machine is stepped between any two taps, then they are all that was taken from the list: the
first wait that ends gets the first key, and so on, and one press at most is still queued.
It is stepped between any two taps if it takes an instruction in every period of its timers.
-/
theorem keys_delivered_in_order (run : Run) {file : List Char → Option (List Byte)}
    {chance : ByteSource}
    (loaded : load (.new run.request.config chance) run.request.source file = .ok run.machine) :
    run.left = (run.started.after run.events).leaveRealtime run.pace ∧
      (∀ outcome ∈ run.started.course run.events, Fills outcome) ∧
      (∃ tapped, run.request.keys = tapped ++ run.untapped ∧
        (run.delivered ++ run.queued).Sublist tapped) ∧
      (spaced false run.events = true →
        run.request.keys = run.delivered ++ run.queued ++ run.untapped ∧
          run.queued.length ≤ 1) ∧
      (run.request.config.Brisk → spaced false run.events = true) := by
  obtain ⟨sound, idle⟩ := Run.started_sound loaded
  obtain ⟨schedule, exit, start, loops, left⟩ := run.loops
  have plays := loops.plays sleepScript_onlyKeys
  obtain ⟨taps, asked, -⟩ := feeds_of_loops loops sound (by rw [idle])
  -- The queue is empty at the beginning, and at the end it is what the events have left.
  have empty : run.started.board.keypad.queue = [] := by rw [idle]; rfl
  have queued : run.queued = (run.started.after run.events).board.keypad.queue := by
    rw [Run.queued, left]
    rfl
  refine ⟨left, Machine.course_fills sound _, ⟨_, taps, ?_⟩, fun apart => ?_, fun brisk => ?_⟩
  · have ordered := Machine.deliveries_ordered sound plays
    rwa [empty, List.nil_append, ← queued] at ordered
  · obtain ⟨all, few⟩ := Machine.deliveries_spaced sound plays asked (.of_empty empty false) apart
    rw [empty, List.nil_append] at all
    rw [queued, Run.delivered, all]
    exact ⟨taps, few⟩
  · -- The clock starts at zero, when the first instruction is due.
    have zero : (0.0 : Float) ≤ 0.0 := by decide +kernel
    have due : schedule.next ≤ 0.0 := by rw [start]; exact zero
    exact spaced_of_loops brisk loops (Run.started_equipped loaded)
      (.inr ⟨⟨zero, .inl zero, by rw [start]; exact zero, .inl due⟩, fun _ => due⟩)

/-- The settings of a standard machine that is stepped at some rate. -/
def paced (rate : Float) : Config :=
  { Config.standard with instructionsPerSecond := rate }

/-- At the rate of the timers a standard machine is brisk, and at half of it it is not. -/
example : (paced 60.0).Brisk ∧ ¬(paced 30.0).Brisk := by
  decide +kernel

/-- A program that waits for two keys and then loops in place. -/
def twoWaits : Source :=
  .inlineText "LD V0, K; LD V1, K; e: JP e".toList

/-- A session at some rate on the program that waits for two keys, with three keys in its list. -/
def threeKeys (rate : Float) : Run where
  request :=
    { source := twoWaits, keys := [1, 2, 3], config := paced rate, realtime := true
      duration := none, trace := false, quiet := true, showDisplay := false }
  machine := (load (.new (paced rate) (.seeded 0)) twoWaits fun _ => none).toOption.getD
    (.new (paced rate) (.seeded 0))
  maxSleeps := 100
  passes := 100

/-- At the usual rate each wait gets a key, and the key that is not waited for stays in the list. -/
theorem keys_delivered_in_order_swift :
    spaced false (threeKeys 700.0).events = true ∧
      [1, 2, 3] = (threeKeys 700.0).delivered ++ (threeKeys 700.0).queued ++
        (threeKeys 700.0).untapped ∧
      (threeKeys 700.0).delivered = [1, 2] := by
  have answers : (load (.new (paced 700.0) (.seeded 0)) twoWaits fun _ => none).isOk = true := by
    decide +kernel
  have loaded : load (.new (paced 700.0) (.seeded 0)) twoWaits (fun _ => none) =
      .ok (threeKeys 700.0).machine :=
    eq_ok_getD answers (.new (paced 700.0) (.seeded 0))
  -- At this rate a step comes between any two polls of the keys.
  have brisk : (paced 700.0).Brisk := by decide +kernel
  obtain ⟨-, -, -, all, apart⟩ := keys_delivered_in_order (threeKeys 700.0) loaded
  exact ⟨apart brisk, (all (apart brisk)).1, by decide +kernel⟩

/-- At thirty steps a second two keys are tapped in one wait, and the second of them is lost. -/
theorem key_lost_at_thirty :
    (threeKeys 30.0).request.keys = [1, 2, 3] ∧ (threeKeys 30.0).delivered = [1, 3] ∧
      (threeKeys 30.0).queued = [] ∧ (threeKeys 30.0).untapped = [] ∧
      (simulate (fun _ => none) (.seeded 0) 100 100
        (["-i", "LD V0, K; LD V1, K; e: JP e", "--keys", "1,2,3", "--hz", "30", "--realtime",
          "-q"].map String.toList)).lines = ["V0=1", "V1=3"] := by
  -- The program waits for its second key when the third one is tapped.
  decide +kernel

end Chip8.Session
