import Chip8.CommandLine.Session
import Chip8.Proofs.Machine.Journal

/-!
The sleeps of a command line session as sequences of events.

A sleep taps at most one key, and looks at no more than whether the machine waits for one.
-/

namespace Chip8.Session

/-- The events of a key that goes down and up again. -/
def taps (key : Key) : List Event :=
  [.press key.val, .release key.val]

/-- The keys that are left behind a sleep, and the events that happen in it. -/
def fed (keys : List Key) (machine : Machine) : List Key × List Event :=
  match keys with
  | [] => ([], [])
  | key :: rest => if machine.registers.awaitingKey then (rest, taps key) else (key :: rest, [])

/-- What happens in the sleeps of a session. -/
def sleepScript : Script SleepClock Unit where
  clock world := (world.time, world)
  sleep seconds world machine :=
    let (keys, events) := fed world.keys machine
    match world.sleepsLeft with
    | 0 => (.error (), { world with keys }, events)
    | left + 1 =>
      (.ok (), { world with keys, time := world.time + seconds, sleepsLeft := left }, events)

/-- Neither event of a tap is refused. -/
theorem tapKey_answers (machine : Machine) (key : Key) :
    (machine.pressKey key.val).1 = .ok () ∧
      ((machine.pressKey key.val).2.releaseKey key.val).1 = .ok () := by
  -- The number of a key names it, whether the key is held or not.
  simp only [Machine.pressKey, Machine.releaseKey, Keypad.press, Keypad.release, Keypad.key_val]
  split <;> exact ⟨rfl, trivial⟩

/-- A key is tapped by two events. -/
theorem tapKey_eq (machine : Machine) (key : Key) :
    tapKey machine key = machine.after (taps key) :=
  rfl

/-- A session feeds what its script tells. -/
theorem feedKey_eq (keys : List Key) (machine : Machine) :
    (feedKey keys machine).getD (keys, machine) =
      ((fed keys machine).1, machine.after (fed keys machine).2) := by
  -- Both look at the list first and then at the mode.
  cases keys with
  | nil => rfl
  | cons key rest =>
    simp only [feedKey, fed]
    split
    · rw [Option.getD_some, tapKey_eq]
    · rfl

/-- The host of a session does what its script tells. -/
theorem sleepScript_host : sleepScript.host = sleepHost := by
  -- Whether the user breaks the sleep off comes after the key.
  have sleeps : sleepScript.host.sleep = sleepHost.sleep := by
    funext seconds world machine
    simp only [Script.host_sleep, sleepScript, sleepHost, feedKey_eq]
    cases world.sleepsLeft <;> rfl
  exact congrArg (Host.mk sleepScript.host.clock sleepScript.host.ticks) sleeps

/-- The world of a session is not changed by looking at it. -/
theorem sleepScript_look (pace : Pace) (world : SleepClock) :
    (sleepScript.host.look pace world).2.2 = world := by
  unfold Host.look Host.meanwhile
  cases pace.background <;> rfl

/-- The sleeps of a session use the keypad and nothing else. -/
theorem sleepScript_onlyKeys : sleepScript.OnlyKeys := by
  intro seconds world machine event listed
  have happens : event ∈ (fed world.keys machine).2 := by
    simp only [sleepScript] at listed
    split at listed <;> exact listed
  unfold fed at happens
  split at happens
  · cases happens
  · split at happens
    · -- A tap is a press and a release.
      rcases List.mem_cons.mp happens with rfl | happens
      · rfl
      · obtain rfl := List.mem_singleton.mp happens
        rfl
    · cases happens

end Chip8.Session
