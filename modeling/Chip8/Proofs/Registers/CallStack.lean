import Chip8.Proofs.Registers.Full

/-!
The ring of sixteen saved frames beside an unbounded stack.

A frame of the ring is the frame of the stack until sixteen others lie on it: the sixteenth is
saved in its place.
-/

namespace Chip8

/-! ### The unbounded stack -/

/-- One use of a stack of return addresses. -/
inductive StackMove where
  | push (address : Int)
  | pop
  deriving DecidableEq

/-- An unbounded stack after some moves, newest address first, unless it is popped when empty. -/
def idealStack : List Int → List StackMove → Option (List Int)
  | stack, [] => some stack
  | stack, .push address :: rest => idealStack (address :: stack) rest
  | _ :: below, .pop :: rest => idealStack below rest
  | [], .pop :: _ => none

/-- The greatest depth of a stack while some moves are made, from its depth before them. -/
def greatestDepth : Nat → List StackMove → Nat
  | depth, [] => depth
  | depth, .push _ :: rest => max depth (greatestDepth (depth + 1) rest)
  | depth, .pop :: rest => max depth (greatestDepth (depth - 1) rest)

/-- What holds when no moves are left, and before a move if it holds behind it, holds before all. -/
@[elab_as_elim]
theorem idealStack_induction {reached : List Int}
    {motive : (stack : List Int) → (moves : List StackMove) →
      idealStack stack moves = some reached → Prop}
    (done : motive reached [] rfl)
    (push : ∀ address stack rest (settled : idealStack (address :: stack) rest = some reached),
      motive (address :: stack) rest settled → motive stack (.push address :: rest) settled)
    (pop : ∀ top below rest (settled : idealStack below rest = some reached),
      motive below rest settled → motive (top :: below) (.pop :: rest) settled)
    {stack : List Int} {moves : List StackMove} (settled : idealStack stack moves = some reached) :
    motive stack moves settled := by
  -- A pop of an empty stack is not settled, so it is no case.
  induction moves generalizing stack with
  | nil =>
    obtain rfl := Option.some.inj settled
    exact done
  | cons move rest ih =>
    cases move with
    | push address => exact push address stack rest settled (ih settled)
    | pop =>
      cases stack with
      | nil => cases settled
      | cons top below => exact pop top below rest settled (ih settled)

/-- Moves go on where those before them have led. -/
theorem idealStack_append {stack reached : List Int} {first second : List StackMove}
    (settled : idealStack stack first = some reached) :
    idealStack stack (first ++ second) = idealStack reached second := by
  -- The first moves are taken before the others are looked at.
  induction settled using idealStack_induction with
  | done => rfl
  | push address stack rest settled ih => exact ih
  | pop top below rest settled ih => exact ih

/-- Moves that a stack allows are allowed up to any point. -/
theorem idealStack_before {stack reached : List Int} {first second : List StackMove}
    (settled : idealStack stack (first ++ second) = some reached) :
    ∃ between, idealStack stack first = some between := by
  -- The moves up to the point decide, so the recursion is that of the stack over them.
  fun_induction idealStack stack first with
  | case1 stack => exact ⟨stack, rfl⟩
  | case2 stack address rest ih => exact ih settled
  | case3 top below rest ih => exact ih settled
  | case4 rest => cases settled

/-- What lies below a stack is not touched by moves that the stack alone allows. -/
theorem idealStack_onto {stack reached below : List Int} {moves : List StackMove}
    (settled : idealStack stack moves = some reached) :
    idealStack (stack ++ below) moves = some (reached ++ below) := by
  -- What is beneath is not reached by moves that are settled without it.
  induction settled using idealStack_induction with
  | done => rfl
  | push address stack rest settled ih => exact ih
  | pop top beneath rest settled ih => exact ih

/-- The greatest depth is at least the depth at the start. -/
theorem le_greatestDepth (depth : Nat) (moves : List StackMove) :
    depth ≤ greatestDepth depth moves := by
  -- The depth at the beginning is one of those that are compared.
  cases moves with
  | nil => exact Nat.le_refl depth
  | cons move rest =>
    cases move with
    | push address => exact Nat.le_max_left _ _
    | pop => exact Nat.le_max_left _ _

/-- No depth that is reached on the way is beyond the greatest. -/
theorem length_le_greatestDepth {stack reached : List Int} {first second : List StackMove}
    (settled : idealStack stack first = some reached) :
    reached.length ≤ greatestDepth stack.length (first ++ second) := by
  -- The depth at the end of the first moves is one of those that are compared.
  induction settled using idealStack_induction with
  | done => exact le_greatestDepth _ _
  | push address stack rest settled ih => exact Nat.le_trans ih (Nat.le_max_right _ _)
  | pop top below rest settled ih => exact Nat.le_trans ih (Nat.le_max_right _ _)

/-- Frames that stay below the moves add to each depth on the way, and so to the greatest. -/
theorem greatestDepth_add {stack reached : List Int} {moves : List StackMove} (below : Nat)
    (settled : idealStack stack moves = some reached) :
    greatestDepth (stack.length + below) moves = greatestDepth stack.length moves + below := by
  -- All depths on the way grow by as much.
  induction settled using idealStack_induction with
  | done => rfl
  | push address stack rest settled deeper =>
    rw [List.length_cons] at deeper
    have order : stack.length + below + 1 = stack.length + 1 + below := by omega
    rw [greatestDepth, greatestDepth, order, deeper]
    omega
  | pop top beneath rest settled deeper =>
    have order : beneath.length + 1 + below - 1 = beneath.length + below := by omega
    rw [List.length_cons, greatestDepth, greatestDepth, order, deeper, Nat.add_sub_cancel]
    omega

/-- A stack grows by one frame at a time, so that some push reaches each depth on the way. -/
theorem push_reaches {stack reached : List Int} {moves : List StackMove} {depth : Nat}
    (settled : idealStack stack moves = some reached) (low : stack.length < depth)
    (high : depth ≤ greatestDepth stack.length moves) :
    ∃ before address rest between, moves = before ++ .push address :: rest ∧
      idealStack stack (before ++ [.push address]) = some between ∧ between.length = depth := by
  -- The first push that reaches the depth is found move by move.
  induction settled using idealStack_induction with
  | done =>
    rw [greatestDepth] at high
    omega
  | push address stack rest settled ih =>
    rw [List.length_cons] at ih
    rw [greatestDepth] at high
    by_cases here : stack.length + 1 = depth
    · exact ⟨[], address, rest, address :: stack, rfl, rfl, here⟩
    · obtain ⟨before, other, behind, between, rfl, led, deep⟩ := ih (by omega) (by omega)
      exact ⟨.push address :: before, other, behind, between, rfl, led, deep⟩
  | pop top below rest settled ih =>
    rw [List.length_cons] at low
    rw [List.length_cons, greatestDepth, Nat.add_sub_cancel] at high
    obtain ⟨before, other, behind, between, rfl, led, deep⟩ := ih (by omega) (by omega)
    exact ⟨.pop :: before, other, behind, between, rfl, led, deep⟩

/-! ### The ring -/

/-- The part of a register file that saves frames. -/
structure CallRing where
  pointer : Int
  frames : List Int
  deriving DecidableEq

namespace CallRing

/-- The ring after a move. -/
def after (ring : CallRing) : StackMove → CallRing
  | .push address =>
    { pointer := (ring.pointer + 1) % 16
      frames := ring.frames.set ((ring.pointer + 1) % 16).toNat (address % 65536) }
  | .pop => { ring with pointer := (ring.pointer - 1) % 16 }

/-- The address that was saved last. -/
def newest (ring : CallRing) : Int :=
  ring.frames.getD ring.pointer.toNat 0

/-- The ring after some moves. -/
def afterAll (ring : CallRing) (moves : List StackMove) : CallRing :=
  moves.foldl after ring

/-- Sixteen frames, and a pointer to one of them. -/
structure Whole (ring : CallRing) : Prop where
  size : ring.frames.length = 16
  low : 0 ≤ ring.pointer
  high : ring.pointer ≤ 15

variable {ring : CallRing} {stack reached : List Int} {moves : List StackMove} {base : Int}

/-- A move leaves a ring whole. -/
theorem Whole.after (whole : ring.Whole) (move : StackMove) : (ring.after move).Whole := by
  -- The pointer is a remainder, and a frame is overwritten in its place.
  cases move with
  | push address =>
    refine ⟨List.length_set.trans whole.size, ?_, ?_⟩
    · show 0 ≤ (ring.pointer + 1) % 16
      omega
    · show (ring.pointer + 1) % 16 ≤ 15
      omega
  | pop =>
    refine ⟨whole.size, ?_, ?_⟩
    · show 0 ≤ (ring.pointer - 1) % 16
      omega
    · show (ring.pointer - 1) % 16 ≤ 15
      omega

/-- Any moves leave a ring whole. -/
theorem Whole.afterAll (whole : ring.Whole) (moves : List StackMove) :
    (ring.afterAll moves).Whole := by
  induction moves generalizing ring with
  | nil => exact whole
  | cons move rest ih => exact ih (whole.after move)

/-- The first of some moves is made first. -/
theorem afterAll_cons (ring : CallRing) (move : StackMove) (rest : List StackMove) :
    ring.afterAll (move :: rest) = (ring.after move).afterAll rest :=
  rfl

/-- Moves on a ring go on where those before them have led. -/
theorem afterAll_append (ring : CallRing) (first second : List StackMove) :
    ring.afterAll (first ++ second) = (ring.afterAll first).afterAll second :=
  List.foldl_append

/-- A push counts one frame more. -/
theorem pointer_push (start : ring.pointer = (base + stack.length) % 16) (address : Int) :
    (ring.after (.push address)).pointer = (base + (address :: stack).length) % 16 := by
  rw [List.length_cons]
  show (ring.pointer + 1) % 16 = _
  omega

/-- A pop counts one frame less. -/
theorem pointer_pop {top : Int} (start : ring.pointer = (base + (top :: stack).length) % 16) :
    (ring.after .pop).pointer = (base + stack.length) % 16 := by
  rw [List.length_cons] at start
  show (ring.pointer - 1) % 16 = _
  omega

/-- The pointer counts the depth of the unbounded stack, modulo sixteen. -/
theorem pointer_afterAll (start : ring.pointer = (base + stack.length) % 16)
    (settled : idealStack stack moves = some reached) :
    (ring.afterAll moves).pointer = (base + reached.length) % 16 := by
  -- A push moves the pointer up and a pop moves it down, both modulo sixteen.
  induction settled using idealStack_induction generalizing ring with
  | done => exact start
  | push address stack rest settled ih => exact ih (pointer_push start address)
  | pop top below rest settled ih => exact ih (pointer_pop start)

/-- A frame stays in its place while fewer than sixteen others lie on it. -/
theorem frame_afterAll (low : 0 ≤ base) (high : base ≤ 15)
    (start : ring.pointer = (base + stack.length) % 16)
    (settled : idealStack stack moves = some reached)
    (shallow : greatestDepth stack.length moves ≤ 15) :
    (ring.afterAll moves).frames[base.toNat]? = ring.frames[base.toNat]? := by
  induction settled using idealStack_induction generalizing ring with
  | done => rfl
  | push address stack rest settled ih =>
    rw [greatestDepth] at shallow
    have deeper := le_greatestDepth (stack.length + 1) rest
    -- Between one and fifteen places further on, the ring is not back at the frame.
    have elsewhere : ((ring.pointer + 1) % 16).toNat ≠ base.toNat := by omega
    have kept : (ring.after (.push address)).frames[base.toNat]? = ring.frames[base.toNat]? :=
      List.getElem?_set_ne elsewhere
    rw [← kept]
    refine ih (pointer_push start address) ?_
    rw [List.length_cons]
    omega
  | pop top below rest settled ih =>
    rw [List.length_cons, greatestDepth, Nat.add_sub_cancel] at shallow
    exact ih (pointer_pop start) (by omega)

/-- A pushed address is saved at the place that the pointer moves to. -/
theorem frame_push (whole : ring.Whole) (address : Int) :
    (ring.after (.push address)).frames[((ring.pointer + 1) % 16).toNat]? =
      some (address % 65536) := by
  -- A pointer modulo sixteen is the place of one of the sixteen frames.
  have inside : ((ring.pointer + 1) % 16).toNat < ring.frames.length := by
    rw [whole.size]
    omega
  exact List.getElem?_set_self inside

/-- Behind moves that leave as many frames as they find, a saved address is newest again. -/
theorem newest_afterAll (whole : ring.Whole) (address : Int)
    (settled : idealStack [] moves = some []) (shallow : greatestDepth 0 moves ≤ 15) :
    (ring.afterAll (.push address :: moves)).newest = address % 65536 ∧
      (ring.afterAll (.push address :: moves ++ [.pop])).pointer = ring.pointer := by
  have low := whole.low
  have high := whole.high
  -- The frame is the base from which the depth of the later moves counts.
  have start : (ring.after (.push address)).pointer =
      ((ring.pointer + 1) % 16 + ([] : List Int).length) % 16 := by
    show (ring.pointer + 1) % 16 = ((ring.pointer + 1) % 16 + (0 : Nat)) % 16
    omega
  have pointer : (ring.afterAll (.push address :: moves)).pointer = (ring.pointer + 1) % 16 := by
    have counted := pointer_afterAll start settled
    rw [List.length_nil] at counted
    refine counted.trans ?_
    omega
  constructor
  · have kept := frame_afterAll (by omega) (by omega) start settled shallow
    rw [newest, pointer, List.getD_eq_getElem?_getD, afterAll_cons, kept, frame_push whole,
      Option.getD_some]
  · rw [afterAll_append]
    show ((ring.afterAll (.push address :: moves)).pointer - 1) % 16 = ring.pointer
    rw [pointer]
    omega

end CallRing

/-! ### Register files -/

namespace Registers

/-- The ring of a register file. -/
def ring (registers : Registers) : CallRing :=
  ⟨registers.sp, registers.stack⟩

/-- The register file with another ring. -/
def withRing (registers : Registers) (ring : CallRing) : Registers :=
  { registers with sp := ring.pointer, stack := ring.frames }

/-- Makes one use of the frames. -/
def move (registers : Registers) : StackMove → Except Fault Registers
  | .push address => registers.pushFrame address
  | .pop => registers.popFrame.map Prod.snd

/-- Makes several uses of the frames in order. -/
def moveAll (registers : Registers) : List StackMove → Except Fault Registers
  | [] => .ok registers
  | move :: rest => do (← registers.move move).moveAll rest

/-- Some push among the moves saves its address in the place of the frame that is newest now. -/
def Overwrites (registers : Registers) (moves : List StackMove) : Prop :=
  ∃ before address rest left, moves = before ++ .push address :: rest ∧
    registers.moveAll (before ++ [.push address]) = .ok left ∧ left.sp = registers.sp

variable {registers : Registers} {reached : List Int} {moves : List StackMove}

/-- A move of a whole ring succeeds and touches nothing else. -/
theorem move_eq (whole : registers.ring.Whole) (full : registers.Full) (move : StackMove) :
    registers.move move = .ok (registers.withRing (registers.ring.after move)) := by
  -- On a full file with a pointer in range neither move is refused.
  cases move with
  | push address => exact full.pushFrame_eq address
  | pop =>
    have popped := full.popFrame_eq whole.low whole.high
    simp only [Registers.move, popped]
    rfl

/-- Moves of a whole ring succeed and touch nothing else. -/
theorem moveAll_eq (whole : registers.ring.Whole) (full : registers.Full)
    (moves : List StackMove) :
    registers.moveAll moves = .ok (registers.withRing (registers.ring.afterAll moves)) := by
  -- Each move leaves a whole ring, so the next one is not refused either.
  induction moves generalizing registers with
  | nil => rfl
  | cons move rest ih =>
    have next : (registers.withRing (registers.ring.after move)).ring.Whole := whole.after move
    rw [moveAll, move_eq whole full move, ok_bind, ih next ⟨full.general, next.size⟩]
    rfl

/-- The stack pointer after moves is the depth that they lead to, modulo sixteen. -/
theorem sp_moveAll (whole : registers.ring.Whole) (full : registers.Full)
    (settled : idealStack [] moves = some reached) :
    ∃ left, registers.moveAll moves = .ok left ∧ left.Full ∧ left.ring.Whole ∧
      left.sp = (registers.sp + reached.length) % 16 := by
  -- The pointer starts in range, where nothing is stacked.
  have start : registers.ring.pointer =
      (registers.sp + ([] : List Int).length) % 16 := by
    have low := whole.low
    have high := whole.high
    simp only [ring, List.length_nil] at low high ⊢
    omega
  have ends := whole.afterAll moves
  exact ⟨_, moveAll_eq whole full moves, ⟨full.general, ends.size⟩, ends,
    CallRing.pointer_afterAll start settled⟩

/-- The newest frame is overwritten exactly when sixteen others lie on it. -/
theorem overwrites_iff (whole : registers.ring.Whole) (full : registers.Full)
    (settled : idealStack [] moves = some reached) :
    registers.Overwrites moves ↔ 16 ≤ greatestDepth 0 moves := by
  have low : 0 ≤ registers.sp := whole.low
  have high : registers.sp ≤ 15 := whole.high
  constructor
  · rintro ⟨before, address, rest, left, rfl, moved, back⟩
    obtain ⟨between, led⟩ := idealStack_before settled
    have pushed : idealStack [] (before ++ [.push address]) = some (address :: between) :=
      idealStack_append led
    obtain ⟨same, done, -, -, pointer⟩ := sp_moveAll whole full pushed
    obtain rfl := Except.ok.inj (moved.symm.trans done)
    -- The push is back at the place, so its depth is a multiple of sixteen.
    have deep : between.length + 1 ≤ greatestDepth 0 (before ++ .push address :: rest) := by
      rw [List.append_cons]
      exact length_le_greatestDepth pushed
    rw [back, List.length_cons] at pointer
    omega
  · intro deep
    -- The push that reaches the sixteenth level comes back to the place of the first.
    obtain ⟨before, address, rest, between, rfl, led, sixteen⟩ :=
      push_reaches settled (by decide) deep
    obtain ⟨left, moved, -, -, pointer⟩ := sp_moveAll whole full led
    refine ⟨before, address, rest, left, rfl, moved, ?_⟩
    rw [pointer, sixteen]
    omega

/-- A pushed address is popped if at most fifteen others have lain on it, and all are gone. -/
theorem popFrame_moveAll (whole : registers.ring.Whole) (full : registers.Full) (address : Int)
    (settled : idealStack [] moves = some []) (shallow : greatestDepth 0 moves ≤ 15) :
    ∃ left popped, registers.moveAll (.push address :: moves) = .ok left ∧
      left.popFrame = .ok (address % 65536, popped) := by
  -- The frame of the first push is the newest again, and was not overwritten.
  have ends := whole.afterAll (.push address :: moves)
  obtain ⟨newest, -⟩ := CallRing.newest_afterAll whole address settled shallow
  have complete : (registers.withRing (registers.ring.afterAll (.push address :: moves))).Full :=
    ⟨full.general, ends.size⟩
  rw [← newest]
  exact ⟨_, _, moveAll_eq whole full (.push address :: moves),
    complete.popFrame_eq ends.low ends.high⟩

/-- The ring of a register file stands for an unbounded stack, which is empty at first. -/
structure SimulatesStack (registers : Registers) : Prop where
  /-- The stack pointer counts the depth, modulo sixteen. -/
  pointer : ∀ moves stack, idealStack [] moves = some stack →
    ∃ left, registers.moveAll moves = .ok left ∧ left.sp = (registers.sp + stack.length) % 16
  /-- A frame is overwritten exactly when the depth gets sixteen frames beyond its own. -/
  overwritten : ∀ earlier address later below above,
    idealStack [] earlier = some below → idealStack [] later = some above →
    ∃ saved, registers.moveAll (earlier ++ [.push address]) = .ok saved ∧
      (saved.Overwrites later ↔
        below.length + 1 + 16 ≤ greatestDepth (below.length + 1) later)
  /-- An address is popped as it was pushed if the depth stays within fifteen frames of its own. -/
  popped : ∀ earlier address later below,
    idealStack [] earlier = some below → idealStack [] later = some [] →
    idealStack [] (earlier ++ .push address :: later) = some (address :: below) ∧
      (greatestDepth (below.length + 1) later ≤ below.length + 1 + 15 →
        ∃ left popped, registers.moveAll (earlier ++ .push address :: later) = .ok left ∧
          left.popFrame = .ok (address % 65536, popped))

/-- Moves go on with the register file that those before them leave. -/
theorem moveAll_append {left : Registers} {first second : List StackMove}
    (moved : registers.moveAll first = .ok left) :
    registers.moveAll (first ++ second) = left.moveAll second := by
  -- The second moves go on from the registers that the first ones have left.
  induction first generalizing registers with
  | nil =>
    obtain rfl := Except.ok.inj moved
    rfl
  | cons move rest ih =>
    obtain ⟨next, done, later⟩ := bind_eq_ok.mp moved
    rw [List.cons_append, moveAll, done, ok_bind]
    exact ih later

/-- A full ring whose pointer is a place of it simulates the unbounded stack. -/
theorem Full.simulatesStack (full : registers.Full) (low : 0 ≤ registers.sp)
    (high : registers.sp ≤ 15) : registers.SimulatesStack := by
  have whole : registers.ring.Whole := ⟨full.frames, low, high⟩
  constructor
  · intro moves stack settled
    obtain ⟨left, moved, -, -, pointer⟩ := sp_moveAll whole full settled
    exact ⟨left, moved, pointer⟩
  · intro earlier address later below above first second
    have pushed : idealStack [] (earlier ++ [.push address]) = some (address :: below) :=
      idealStack_append first
    obtain ⟨saved, moved, complete, ring, -⟩ := sp_moveAll whole full pushed
    refine ⟨saved, moved, ?_⟩
    -- The frames below add to the depth at which the frame lies and to the greatest.
    have deeper := greatestDepth_add (below.length + 1) second
    rw [List.length_nil, Nat.zero_add] at deeper
    rw [overwrites_iff ring complete second, deeper]
    omega
  · intro earlier address later below first second
    constructor
    · rw [idealStack_append first]
      exact idealStack_onto second
    · -- A frame that no later push has reached is still there to be popped.
      intro shallow
      have deeper := greatestDepth_add (below.length + 1) second
      rw [List.length_nil, Nat.zero_add] at deeper
      obtain ⟨middle, moved, complete, ring, -⟩ := sp_moveAll whole full first
      obtain ⟨left, popped, done, answer⟩ :=
        popFrame_moveAll ring complete address second (by omega)
      exact ⟨left, popped, (moveAll_append moved).trans done, answer⟩

end Registers

end Chip8
