import Chip8.Proofs.Keypad

/-!
A keypad beside the whole history of its uses.

The effective presses, which find their keys up, are numbered in the order in which they are made.
The queue is always the end of their list.
What has left it went from the front.
It was taken, flushed, or pushed out by the sixteenth press behind it.
-/

namespace Chip8

/-- One use of a keypad, with numbers of any size. -/
inductive KeypadUse where
  | press (number : Int)
  | release (number : Int)
  | releaseAll
  | take
  | flush
  deriving DecidableEq

namespace KeypadUse

/-- The keypad that a use leaves behind. -/
def left (use : KeypadUse) (keypad : Keypad) : Keypad :=
  match use with
  | .press number => (keypad.press number).2
  | .release number => (keypad.release number).2
  | .releaseAll => keypad.releaseAll
  | .take => keypad.takePress.2
  | .flush => keypad.flush

/-- The key of an effective press, which finds the key up. -/
def effective? (use : KeypadUse) (keypad : Keypad) : Option Key :=
  match use with
  | .press number => keypad.freshKey? number
  | _ => none

/-- The key that is taken, if any is. -/
def taken? (use : KeypadUse) (keypad : Keypad) : Option Key :=
  match use with
  | .take => keypad.takePress.1
  | _ => none

end KeypadUse

namespace Keypad

/-- The keypad after a history of uses, newest use first. -/
def after : List KeypadUse → Keypad
  | [] => .idle
  | use :: earlier => use.left (after earlier)

/-- The keys of all effective presses of a history, oldest first. -/
def presses : List KeypadUse → List Key
  | [] => []
  | use :: earlier => presses earlier ++ (use.effective? (after earlier)).toList

/-- How many of the effective presses are no longer queued. -/
def gone (history : List KeypadUse) : Nat :=
  (presses history).length - (after history).queue.length

/-- The effective press with a number is still queued. -/
def Queued (history : List KeypadUse) (number : Nat) : Prop :=
  gone history ≤ number ∧ number < (presses history).length

/-- The keys that were taken, in order. -/
def answers : List KeypadUse → List Key
  | [] => []
  | use :: earlier => answers earlier ++ (use.taken? (after earlier)).toList

/-- The number of the press that a use takes: the first one that is queued. -/
def returnedBy? (use : KeypadUse) (earlier : List KeypadUse) : Option Nat :=
  (use.taken? (after earlier)).map fun _ => gone earlier

/-- The numbers of the presses that were taken, in order. -/
def returned : List KeypadUse → List Nat
  | [] => []
  | use :: earlier => returned earlier ++ (returnedBy? use earlier).toList

/-- A use takes a press out of the queue without returning it: a flush, or the sixteenth press. -/
def LosesBy (use : KeypadUse) (earlier : List KeypadUse) (number : Nat) : Prop :=
  Queued earlier number ∧
    (use = .flush ∨ (presses (use :: earlier)).length = number + 1 + 16)

/-- A press was taken out of the queue at some time without being returned. -/
def Lost (history : List KeypadUse) (number : Nat) : Prop :=
  ∃ later use earlier, history = later ++ use :: earlier ∧ LosesBy use earlier number

/-- A key was pressed and has not been released since. -/
def Down (history : List KeypadUse) (key : Key) : Prop :=
  ∃ later earlier, history = later ++ .press key.val :: earlier ∧
    .release key.val ∉ later ∧ .releaseAll ∉ later

/-- What is true of a keypad after any history of uses. -/
structure Lawful (history : List KeypadUse) : Prop where
  /-- The held keys are those that were pressed with no later release. -/
  held : ∀ key, key ∈ (after history).heldKeys ↔ Down history key
  /-- What is queued are the effective presses from some number on, in their order. -/
  queue : (after history).queue = (presses history).drop (gone history)
  /-- What was taken are the keys of the presses that were returned. -/
  values : (answers history).map some =
    (returned history).map fun number => (presses history)[number]?
  /-- Presses are returned in their order, and each at most once. -/
  order : (returned history).Pairwise (· < ·)
  /-- What is returned behind a flush was pressed behind it. -/
  flushed : ∀ later earlier, history = later ++ .flush :: earlier →
    ∃ rest, returned history = returned earlier ++ rest ∧
      ∀ number ∈ rest, (presses earlier).length ≤ number
  /-- A press has left the queue without being returned exactly if a use took it out. -/
  lost : ∀ number < (presses history).length,
    ¬Queued history number ∧ number ∉ returned history ↔ Lost history number
  /-- A press that is taken is the oldest that is queued. -/
  oldest : ∀ key left, (after history).takePress = (some key, left) →
    left = after (.take :: history) ∧ ∃ number, Queued history number ∧
      (∀ other, Queued history other → number ≤ other) ∧ (presses history)[number]? = some key
  /-- No press is taken exactly if none is queued, and then nothing changes. -/
  none : (after history).takePress = (none, after history) ↔ ∀ number, ¬Queued history number
  /-- A number without a key is refused, and changes nothing. -/
  refused : ∀ number : Int, ¬(0 ≤ number ∧ number < 16) →
    (after history).press number = (.error (.invalidKey number), after history) ∧
      (after history).release number = (.error (.invalidKey number), after history) ∧
      after (.press number :: history) = after history ∧
      after (.release number :: history) = after history

/-! ### Single uses -/

/-- What a use does to the presses and to the queue. -/
inductive Moves (earlier : List KeypadUse) : KeypadUse → Prop
  /-- An effective press is counted, and put behind the others. -/
  | pressed {use key} (effective : use.effective? (after earlier) = some key)
    (silent : returnedBy? use earlier = none) (noFlush : use ≠ .flush)
    (queue : (after (use :: earlier)).queue = enqueue (after earlier).queue key) :
    Moves earlier use
  /-- The press in front is taken. -/
  | taken {key rest} (queued : (after earlier).queue = key :: rest)
    (queue : (after (.take :: earlier)).queue = rest) : Moves earlier .take
  /-- Nothing stays queued. -/
  | flushed (queue : (after (.flush :: earlier)).queue = []) : Moves earlier .flush
  /-- Nothing is pressed or taken. -/
  | idle {use} (ineffective : use.effective? (after earlier) = none)
    (silent : use.taken? (after earlier) = none) (noFlush : use ≠ .flush)
    (queue : (after (use :: earlier)).queue = (after earlier).queue) : Moves earlier use

variable {history earlier : List KeypadUse} {use : KeypadUse} {number : Nat}

/-- Every use is of one of the kinds. -/
theorem moves (use : KeypadUse) (earlier : List KeypadUse) : Moves earlier use := by
  -- Of the uses only a press that counts, a taken press and a flush move the queue.
  cases use with
  | press number =>
    cases fresh : (after earlier).freshKey? number with
    | some key =>
      refine .pressed fresh rfl (by simp) ?_
      simp only [after, KeypadUse.left, press_of_fresh fresh]
    | none =>
      refine .idle fresh rfl (by simp) ?_
      rw [after, KeypadUse.left, press_of_stale fresh]
  | release number => exact .idle rfl rfl (by simp) (release_queue _ number)
  | releaseAll => exact .idle rfl rfl (by simp) rfl
  | take =>
    cases queued : (after earlier).queue with
    | nil =>
      have empty : (after earlier).takePress = (.none, after earlier) := by
        rw [takePress, queued]
      refine .idle rfl ?_ (by simp) ?_
      · rw [KeypadUse.taken?, empty]
      · rw [after, KeypadUse.left, empty]
    | cons key rest =>
      refine .taken queued ?_
      simp only [after, KeypadUse.left, takePress, queued]
  | flush => exact .flushed rfl

/-- An effective press is counted, and no other use is. -/
theorem presses_cons (use : KeypadUse) (earlier : List KeypadUse) :
    presses (use :: earlier) = presses earlier ++ (use.effective? (after earlier)).toList :=
  rfl

/-- A use that is no effective press is not counted. -/
theorem presses_of_ineffective (ineffective : use.effective? (after earlier) = none) :
    presses (use :: earlier) = presses earlier := by
  rw [presses_cons, ineffective]
  exact List.append_nil _

/-- The queue is the end of the list of effective presses. -/
theorem queue_suffix (history : List KeypadUse) : (after history).queue <:+ presses history := by
  -- A press is put behind both lists, and all else takes from the front of the queue.
  induction history with
  | nil => exact List.suffix_refl []
  | cons use earlier ih =>
    cases moves use earlier with
    | @pressed _ key effective _ _ queue =>
      rw [presses_cons, queue, effective, enqueue]
      obtain ⟨front, whole⟩ := ih
      refine (List.drop_suffix _ _).trans ⟨front, ?_⟩
      rw [← List.append_assoc, whole]
      rfl
    -- A taken press is the first of the queue.
    | taken queued queue =>
      rw [presses_of_ineffective rfl, queue]
      rw [queued] at ih
      exact (List.suffix_cons _ _).trans ih
    | flushed queue =>
      rw [queue]
      exact List.nil_suffix
    | idle ineffective _ _ queue => rwa [presses_of_ineffective ineffective, queue]

/-- The queue keeps within its capacity. -/
theorem queue_length_le (history : List KeypadUse) : (after history).queue.length ≤ 16 := by
  -- A press that finds sixteen in the queue pushes the oldest one out.
  induction history with
  | nil => exact Nat.zero_le _
  | cons use earlier ih =>
    cases moves use earlier with
    | pressed _ _ _ queue =>
      rw [queue, enqueue_length]
      exact Nat.min_le_right _ 16
    | taken queued queue =>
      rw [queued, List.length_cons] at ih
      rw [queue]
      omega
    | flushed queue =>
      rw [queue]
      exact Nat.zero_le _
    | idle _ _ _ queue => rwa [queue]

/-- What is gone and what is queued are all presses together. -/
theorem gone_add_queue (history : List KeypadUse) :
    gone history + (after history).queue.length = (presses history).length :=
  Nat.sub_add_cancel (queue_suffix history).length_le

/-- What a use does to the numbers of the presses. -/
theorem gone_cons (use : KeypadUse) (earlier : List KeypadUse) (number : Nat) :
    number < gone (use :: earlier) ↔
      number < gone earlier ∨ returnedBy? use earlier = some number ∨
        LosesBy use earlier number := by
  have before := gone_add_queue earlier
  have behind := gone_add_queue (use :: earlier)
  have within := queue_length_le earlier
  -- The numbers that go are read off the lengths of both lists, kind by kind.
  cases moves use earlier with
  | @pressed _ key effective silent noFlush queue =>
    -- A full queue loses its first press, which is the sixteenth before this one.
    have longer : (presses (use :: earlier)).length = (presses earlier).length + 1 := by
      rw [presses_cons, effective]
      exact List.length_append
    rw [queue, enqueue_length] at behind
    simp only [LosesBy, Queued, silent, noFlush, false_or, reduceCtorEq, longer]
    rw [capacity] at behind
    omega
  | @taken key rest queued queue =>
    -- The press in front is the first that is queued.
    have same : presses (.take :: earlier) = presses earlier := presses_of_ineffective rfl
    have front : returnedBy? .take earlier = some (gone earlier) := by
      simp [returnedBy?, KeypadUse.taken?, takePress, queued]
    rw [queue, same] at behind
    rw [queued, List.length_cons] at before within
    simp only [LosesBy, Queued, front, Option.some.injEq, reduceCtorEq, false_or, same]
    omega
  | flushed queue =>
    have same : presses (.flush :: earlier) = presses earlier := presses_of_ineffective rfl
    rw [queue, same, List.length_nil] at behind
    simp only [LosesBy, Queued, returnedBy?, KeypadUse.taken?, Option.map_none, reduceCtorEq,
      false_or, true_or, and_true]
    omega
  | idle ineffective silent noFlush queue =>
    have same := presses_of_ineffective ineffective
    rw [queue, same] at behind
    simp only [LosesBy, Queued, returnedBy?, silent, Option.map_none, noFlush, reduceCtorEq,
      false_or, same]
    omega

/-- What is gone stays gone. -/
theorem gone_mono (later earlier : List KeypadUse) : gone earlier ≤ gone (later ++ earlier) := by
  -- No use brings a number back.
  induction later with
  | nil => exact Nat.le_refl _
  | cons use rest ih =>
    refine Nat.le_trans ih (Nat.le_of_not_lt fun back => ?_)
    have kept := (gone_cons use (rest ++ earlier) (gone (use :: (rest ++ earlier)))).mpr (.inl back)
    exact Nat.lt_irrefl _ kept

/-! ### What becomes of a press -/

/-- A press that a use takes was the first in the queue. -/
theorem queued_of_returnedBy (taken : returnedBy? use earlier = some number) :
    number = gone earlier ∧ use = .take := by
  obtain ⟨key, took, rfl⟩ := Option.map_eq_some_iff.mp taken
  -- Only a take takes.
  cases use with
  | take => exact ⟨rfl, rfl⟩
  | _ => cases took

/-- A use that takes a press loses none. -/
theorem not_losesBy_of_returnedBy (taken : returnedBy? use earlier = some number) (other : Nat) :
    ¬LosesBy use earlier other := by
  obtain ⟨-, rfl⟩ := queued_of_returnedBy taken
  intro loses
  obtain ⟨⟨low, high⟩, flush | many⟩ := loses
  · cases flush
  · -- The queue holds no more than sixteen presses, so none is seventeenth from the end.
    have all := gone_add_queue earlier
    have within := queue_length_le earlier
    rw [presses_of_ineffective rfl] at many
    omega

/-- A press was lost by the newest use, or before. -/
theorem lost_cons (use : KeypadUse) (earlier : List KeypadUse) (number : Nat) :
    Lost (use :: earlier) number ↔ LosesBy use earlier number ∨ Lost earlier number := by
  constructor
  · -- The losing use is the newest one if nothing is behind it.
    intro lost
    obtain ⟨later, last, before, split, loses⟩ := lost
    cases later with
    | nil =>
      cases split
      exact .inl loses
    | cons _ rest =>
      cases split
      exact .inr ⟨rest, last, before, rfl, loses⟩
  · intro either
    cases either with
    | inl loses => exact ⟨[], use, earlier, rfl, loses⟩
    | inr lost =>
      obtain ⟨later, last, before, rfl, loses⟩ := lost
      exact ⟨use :: later, last, before, rfl, loses⟩

/-- Each press that is gone was either returned or lost. -/
theorem gone_iff (history : List KeypadUse) (number : Nat) :
    (number < gone history ↔ number ∈ returned history ∨ Lost history number) ∧
      ¬(number ∈ returned history ∧ Lost history number) := by
  induction history with
  | nil =>
    -- Nothing was pressed yet.
    have found : ¬Lost [] number := by
      intro lost
      obtain ⟨later, use, earlier, split, -⟩ := lost
      cases later <;> cases split
    simp [gone, presses, returned, found]
  | cons use earlier ih =>
    obtain ⟨either, notBoth⟩ := ih
    rw [gone_cons, lost_cons, returned, List.mem_append, Option.mem_toList]
    constructor
    · -- What goes now is added to what was gone before, on both sides.
      rw [either]
      grind
    · rintro ⟨listed | taken, loses | lost⟩
      · -- A press that was returned earlier is no longer queued.
        have low := either.mpr (.inl listed)
        exact absurd loses.1.1 (Nat.not_le.mpr low)
      · exact notBoth ⟨listed, lost⟩
      · exact not_losesBy_of_returnedBy taken number loses
      · -- A press that was lost earlier cannot be taken now.
        have low := either.mpr (.inr lost)
        obtain ⟨rfl, -⟩ := queued_of_returnedBy taken
        exact Nat.lt_irrefl _ low

/-- A press is queued as long as it is not gone. -/
theorem not_queued_iff (pressed : number < (presses history).length) :
    ¬Queued history number ↔ number < gone history := by
  rw [Queued]
  exact (not_congr (and_iff_left pressed)).trans Nat.not_le

/-- A press that was returned is gone. -/
theorem gone_of_returned (listed : number ∈ returned history) : number < gone history :=
  (gone_iff history number).1.mpr (.inl listed)

/-- A press that is not queued was lost, if it was not returned. -/
theorem lost_iff (pressed : number < (presses history).length) :
    ¬Queued history number ∧ number ∉ returned history ↔ Lost history number := by
  -- What is gone was either returned or lost, and not both.
  obtain ⟨either, notBoth⟩ := gone_iff history number
  rw [not_queued_iff pressed, either]
  constructor
  · intro unqueued
    obtain ⟨listed | lost, unreturned⟩ := unqueued
    · exact absurd listed unreturned
    · exact lost
  · intro lost
    exact ⟨.inr lost, fun listed => notBoth ⟨listed, lost⟩⟩

/-! ### What is returned -/

/-- The queue begins with the first press that is not gone. -/
theorem queue_eq_drop (history : List KeypadUse) :
    (after history).queue = (presses history).drop (gone history) :=
  List.suffix_iff_eq_drop.mp (queue_suffix history)

/-- The press in front of the queue is the first that is not gone. -/
theorem takePress_eq_some {key : Key} {left : Keypad}
    (took : (after history).takePress = (some key, left)) :
    (presses history)[gone history]? = some key ∧ left = after (.take :: history) := by
  have behind : after (.take :: history) = left := by rw [after, KeypadUse.left, took]
  refine ⟨?_, behind.symm⟩
  -- The queue is what is left of the presses behind those that are gone.
  rw [← List.head?_drop, ← queue_eq_drop]
  unfold takePress at took
  split at took
  · cases took
  · rename_i queued
    rw [queued]
    exact congrArg Prod.fst took

/-- No press is taken exactly if all are gone. -/
theorem takePress_eq_none :
    (after history).takePress = (.none, after history) ↔
      gone history = (presses history).length := by
  -- What is gone and what is queued are all the presses together.
  have all := gone_add_queue history
  unfold takePress
  split
  · rename_i empty
    rw [empty, List.length_nil] at all
    exact ⟨fun _ => all, fun _ => rfl⟩
  · rename_i queued
    rw [queued, List.length_cons] at all
    constructor
    · intro took
      cases took
    · intro same
      omega

/-- The presses that were counted before keep their numbers. -/
theorem presses_getElem? (use : KeypadUse) (pressed : number < (presses earlier).length) :
    (presses (use :: earlier))[number]? = (presses earlier)[number]? :=
  List.getElem?_append_left pressed

/-- What was taken are the keys of the presses that were returned. -/
theorem answers_eq (history : List KeypadUse) :
    (answers history).map some =
      (returned history).map fun number => (presses history)[number]? := by
  induction history with
  | nil => rfl
  | cons use earlier ih =>
    -- A use adds a press at the end, so the presses with smaller numbers stay what they were.
    have kept : (returned earlier).map (fun number => (presses (use :: earlier))[number]?) =
        (returned earlier).map fun number => (presses earlier)[number]? := by
      refine List.map_congr_left fun number listed => presses_getElem? use ?_
      have low := gone_of_returned listed
      have all := gone_add_queue earlier
      omega
    rw [answers, returned, List.map_append, List.map_append, kept, ih]
    congr 1
    cases use with
    | take =>
      rcases took : (after earlier).takePress with ⟨- | key, left⟩
      · simp only [returnedBy?, KeypadUse.taken?, took, Option.map_none, Option.toList_none,
          List.map_nil]
      · -- The press that is taken is the first that was queued.
        obtain ⟨front, -⟩ := takePress_eq_some took
        have same : presses (.take :: earlier) = presses earlier := presses_of_ineffective rfl
        simp only [returnedBy?, KeypadUse.taken?, took, Option.map_some, Option.toList_some,
          List.map_cons, List.map_nil, same, front]
    | _ => rfl

/-- Presses are returned in their order, and each at most once. -/
theorem returned_increasing (history : List KeypadUse) :
    (returned history).Pairwise (· < ·) := by
  induction history with
  | nil => exact List.Pairwise.nil
  | cons use earlier ih =>
    rw [returned, List.pairwise_append]
    refine ⟨ih, ?_, ?_⟩
    · cases returnedBy? use earlier with
      | none => exact List.Pairwise.nil
      | some number => exact List.pairwise_singleton _ number
    · -- What was returned before is gone, and what is returned now was still queued.
      intro number listed next taken
      obtain ⟨rfl, -⟩ := queued_of_returnedBy (Option.mem_toList.mp taken)
      exact gone_of_returned listed

/-- What is returned later was not gone earlier. -/
theorem returned_append (later earlier : List KeypadUse) :
    ∃ rest, returned (later ++ earlier) = returned earlier ++ rest ∧
      ∀ number ∈ rest, gone earlier ≤ number := by
  -- Every later use returns a press that was still in the queue then.
  induction later with
  | nil =>
    refine ⟨[], (List.append_nil _).symm, ?_⟩
    intro number listed
    cases listed
  | cons use later ih =>
    obtain ⟨rest, split, fresh⟩ := ih
    refine ⟨rest ++ (returnedBy? use (later ++ earlier)).toList, ?_, ?_⟩
    · rw [List.cons_append, returned, split, List.append_assoc]
    · intro number listed
      rcases List.mem_append.mp listed with before | now
      · exact fresh number before
      · obtain ⟨rfl, -⟩ := queued_of_returnedBy (Option.mem_toList.mp now)
        exact gone_mono later earlier

/-- Behind a flush all presses before it are gone, and none is returned by it. -/
theorem flush_gone (earlier : List KeypadUse) :
    gone (.flush :: earlier) = (presses earlier).length ∧
      returned (.flush :: earlier) = returned earlier := by
  -- Behind a flush nothing is queued, so all presses are gone.
  constructor
  · rw [gone, presses_of_ineffective rfl]
    rfl
  · exact List.append_nil _

/-! ### Held keys -/

/-- A key is down behind a use that presses it, or if it was before and the use does not lift it. -/
theorem down_cons (use : KeypadUse) (earlier : List KeypadUse) (key : Key) :
    Down (use :: earlier) key ↔ use = .press key.val ∨
      (use ≠ .release key.val ∧ use ≠ .releaseAll ∧ Down earlier key) := by
  constructor
  · -- The press is the newest use if nothing is behind it.
    intro down
    obtain ⟨later, before, split, kept, notAll⟩ := down
    cases later with
    | nil =>
      cases split
      exact .inl rfl
    | cons _ rest =>
      cases split
      rw [List.mem_cons, not_or] at kept notAll
      exact .inr ⟨Ne.symm kept.1, Ne.symm notAll.1, rest, before, rfl, kept.2, notAll.2⟩
  · rintro (rfl | ⟨kept, notAll, later, before, rfl, laterKept, laterNotAll⟩)
    · refine ⟨[], earlier, rfl, ?_, ?_⟩ <;> exact List.not_mem_nil
    · refine ⟨use :: later, before, rfl, ?_, ?_⟩ <;> rw [List.mem_cons, not_or]
      · exact ⟨Ne.symm kept, laterKept⟩
      · exact ⟨Ne.symm notAll, laterNotAll⟩

/-- A press puts its key down, and leaves the others where they were. -/
theorem held_press (keypad : Keypad) (number : Int) (key : Key) :
    ((KeypadUse.press number).left keypad).held.get key = true ↔
      number = key.val ∨ keypad.held.get key = true := by
  cases fresh : keypad.freshKey? number with
  | none =>
    -- Nothing changes, and a key that the number names is down already.
    rw [KeypadUse.left, press_of_stale fresh]
    refine (or_iff_right_of_imp ?_).symm
    rintro rfl
    rw [freshKey?_val] at fresh
    split at fresh
    · assumption
    · cases fresh
  | some pressed =>
    -- A fresh key goes down, and all others stay as they are.
    obtain rfl := number_of_fresh fresh
    have same : (pressed.val : Int) = key.val ↔ key = pressed := by
      rw [Int.natCast_inj, Fin.val_inj, eq_comm]
    simp only [KeypadUse.left, press_of_fresh fresh]
    show (keypad.held.set pressed true pressed.isLt).get key = true ↔ _
    rw [held_set, same]
    split
    · rename_i here
      exact iff_of_true rfl (.inl here)
    · rename_i elsewhere
      exact (or_iff_right elsewhere).symm

/-- A release lifts its key, and leaves the others where they were. -/
theorem held_release (keypad : Keypad) (number : Int) (key : Key) :
    ((KeypadUse.release number).left keypad).held.get key = true ↔
      number ≠ key.val ∧ keypad.held.get key = true := by
  cases names : Keypad.key number with
  | error fault =>
    -- The number of a key would name it.
    have other : number ≠ key.val := by
      rintro rfl
      rw [key_val] at names
      cases names
    simp only [KeypadUse.left, release, names]
    exact (and_iff_right other).symm
  | ok lifted =>
    -- The key that is named goes up, and all others stay as they are.
    obtain rfl := key_eq_ok names
    have same : (lifted.val : Int) = key.val ↔ key = lifted := by
      rw [Int.natCast_inj, Fin.val_inj, eq_comm]
    simp only [KeypadUse.left, release, key_val]
    show (keypad.held.set lifted false lifted.isLt).get key = true ↔ _
    rw [held_set, Ne, same]
    split
    · rename_i here
      exact iff_of_false Bool.false_ne_true fun kept => kept.1 here
    · rename_i elsewhere
      exact (and_iff_right elsewhere).symm

/-- A key is held exactly if it was pressed and not released since. -/
theorem held_iff_down (history : List KeypadUse) (key : Key) :
    (after history).held.get key = true ↔ Down history key := by
  -- The induction is on the history; taking and flushing touch no key.
  induction history with
  | nil =>
    -- On an idle keypad every key is up, and none was pressed.
    refine iff_of_false ?_ ?_
    · exact Bool.eq_false_iff.mp (held_replicate key)
    · intro down
      obtain ⟨later, earlier, split, -⟩ := down
      cases later <;> cases split
  | cons use earlier ih =>
    rw [down_cons, ← ih, after]
    cases use with
    | press number =>
      rw [held_press]
      simp
    | release number =>
      rw [held_release]
      simp
    | releaseAll =>
      refine iff_of_false (Bool.eq_false_iff.mp (held_replicate key)) ?_
      simp
    | take =>
      have kept : (KeypadUse.take.left (after earlier)).held = (after earlier).held := by
        simp only [KeypadUse.left, takePress]
        split <;> rfl
      rw [kept]
      simp
    | flush =>
      show (after earlier).held.get key = true ↔ _
      simp

/--
The queue law of a keypad, for every history of its uses.

Effective presses find their key up.
They are taken in their order, each at most once, and none from before the last flush.
One that leaves the queue without being taken was flushed, or pushed out by the sixteenth press
behind it.
The held keys are those that were pressed with no later release, and a number without a key is
refused and changes nothing.
-/
theorem keypad_lawful (history : List KeypadUse) : Lawful history where
  held key := mem_heldKeys.trans (held_iff_down history key)
  queue := queue_eq_drop history
  values := answers_eq history
  order := returned_increasing history
  flushed later earlier split := by
    -- All presses before the flush are gone, so each later answer is a press behind it.
    obtain ⟨rest, listed, fresh⟩ := returned_append later (.flush :: earlier)
    obtain ⟨all, none⟩ := flush_gone earlier
    rw [← split, none] at listed
    rw [all] at fresh
    exact ⟨rest, listed, fresh⟩
  lost _ pressed := lost_iff pressed
  oldest key left took := by
    obtain ⟨front, behind⟩ := takePress_eq_some took
    obtain ⟨inside, -⟩ := List.getElem?_eq_some_iff.mp front
    exact ⟨behind, gone history, ⟨Nat.le_refl _, inside⟩, fun _ queued => queued.1, front⟩
  none := by
    rw [takePress_eq_none]
    have all := gone_add_queue history
    constructor
    · intro same number queued
      obtain ⟨low, high⟩ := queued
      omega
    · -- If any press were left, then the first one would be queued.
      intro unqueued
      have first := unqueued (gone history)
      simp only [Queued] at first
      omega
  refused number outside := by
    -- A number that names no key is refused before anything is changed.
    have unnamed := key_outside outside
    have pressed : (after history).press number =
        (.error (.invalidKey number), after history) := by
      rw [press, unnamed]
    have released : (after history).release number =
        (.error (.invalidKey number), after history) := by
      rw [release, unnamed]
    refine ⟨pressed, released, ?_, ?_⟩
    · rw [after, KeypadUse.left, pressed]
    · rw [after, KeypadUse.left, released]

end Keypad

end Chip8
