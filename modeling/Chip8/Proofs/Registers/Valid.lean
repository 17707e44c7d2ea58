import Chip8.Proofs.Registers.Full

/-!
The register files that pass the check of their ranges, and the setters that keep them there.

The check allows every byte as a stack pointer, although the ring has sixteen frames only.
-/

namespace Chip8

namespace Registers

/-- What the check of a register file looks at. -/
structure Valid (registers : Registers) : Prop extends registers.Full where
  /-- Every general register holds a byte. -/
  bytes : ∀ value ∈ registers.v, 0 ≤ value ∧ value ≤ 0xFF
  /-- Every frame holds sixteen bits. -/
  words : ∀ frame ∈ registers.stack, 0 ≤ frame ∧ frame ≤ 0xFFFF
  /-- The address register holds sixteen bits. -/
  index : 0 ≤ registers.i ∧ registers.i ≤ 0xFFFF
  /-- The program counter holds sixteen bits. -/
  counter : 0 ≤ registers.pc ∧ registers.pc ≤ 0xFFFF
  /-- The stack pointer holds a byte, which need not be a place of the ring. -/
  pointer : 0 ≤ registers.sp ∧ registers.sp ≤ 0xFF
  /-- The delay timer holds a byte. -/
  delay : 0 ≤ registers.delayTimer ∧ registers.delayTimer ≤ 0xFF
  /-- The sound timer holds a byte. -/
  sound : 0 ≤ registers.soundTimer ∧ registers.soundTimer ≤ 0xFF
  /-- A register is named for a key exactly in a wait. -/
  target : registers.awaitingKey = registers.keyRegister.isSome
  /-- Cycles are only counted up. -/
  cycles : 0 ≤ registers.cycleCount

variable {registers : Registers}

/-- The check passes the files that it describes, and no others. -/
theorem isValid_iff : registers.isValid = true ↔ registers.Valid := by
  -- The checks are made one after the other, each of them on its own field.
  simp only [isValid, Bool.and_eq_true, beq_iff_eq, List.all_eq_true, decide_eq_true_eq]
  constructor
  · rintro ⟨⟨⟨⟨⟨⟨⟨⟨⟨⟨general, frames⟩, bytes⟩, words⟩, index⟩, counter⟩, pointer⟩, delay⟩, sound⟩,
      target⟩, cycles⟩
    exact { general, frames, bytes, words, index, counter, pointer, delay, sound, target, cycles }
  · intro valid
    exact ⟨⟨⟨⟨⟨⟨⟨⟨⟨⟨valid.general, valid.frames⟩, valid.bytes⟩, valid.words⟩, valid.index⟩,
      valid.counter⟩, valid.pointer⟩, valid.delay⟩, valid.sound⟩, valid.target⟩, valid.cycles⟩

namespace Valid

/-- Truncated writes keep a file valid. -/
theorem writeAll (valid : registers.Valid) (writes : List (Int × Int)) :
    ({ registers with v := Registers.writeAll registers.v writes }).Valid :=
  { valid with
    general := (length_writeAll registers.v writes).trans valid.general
    bytes := range_writeAll valid.bytes writes }

/-- An address register that is cut to sixteen bits keeps a file valid. -/
theorem setIndex (valid : registers.Valid) (value : Int) : (registers.setIndex value).Valid := by
  refine { valid with index := ?_ }
  show 0 ≤ value % 65536 ∧ value % 65536 ≤ 0xFFFF
  omega

/-- A counter that moves on by any number of instructions wraps around at sixteen bits. -/
theorem advanceBy (valid : registers.Valid) (count : Int) : (registers.advanceBy count).Valid := by
  refine { valid with counter := ?_ }
  show 0 ≤ (registers.pc + 2 * count) % 65536 ∧ (registers.pc + 2 * count) % 65536 ≤ 0xFFFF
  omega

/-- A counter that jumps is cut to sixteen bits. -/
theorem jump (valid : registers.Valid) (address : Int) : (registers.jump address).Valid := by
  refine { valid with counter := ?_ }
  show 0 ≤ address % 65536 ∧ address % 65536 ≤ 0xFFFF
  omega

/-- A saved address is cut to sixteen bits, and its place is always one of the ring. -/
theorem push (valid : registers.Valid) (address : Int) :
    ({ registers with
      sp := (registers.sp + 1) % 16
      stack := registers.stack.set ((registers.sp + 1) % 16).toNat (address % 65536) }).Valid := by
  -- Both the pointer and the address are reduced before they are stored.
  refine { valid with frames := ?_, words := ?_, pointer := ?_ }
  · exact List.length_set.trans valid.frames
  · exact range_set valid.words _ (by omega)
  · show 0 ≤ (registers.sp + 1) % 16 ∧ (registers.sp + 1) % 16 ≤ 0xFF
    omega

/-- The pointer below a frame is always a place of the ring. -/
theorem pop (valid : registers.Valid) :
    ({ registers with sp := (registers.sp - 1) % 16 }).Valid := by
  refine { valid with pointer := ?_ }
  show 0 ≤ (registers.sp - 1) % 16 ∧ (registers.sp - 1) % 16 ≤ 0xFF
  omega

/-- A truncated delay keeps a file valid. -/
theorem setDelay (valid : registers.Valid) (value : Int) : (registers.setDelay value).Valid := by
  refine { valid with delay := ?_ }
  show 0 ≤ value % 256 ∧ value % 256 ≤ 0xFF
  omega

/-- A truncated sound duration keeps a file valid. -/
theorem setSound (valid : registers.Valid) (value : Int) : (registers.setSound value).Valid := by
  refine { valid with sound := ?_ }
  show 0 ≤ value % 256 ∧ value % 256 ≤ 0xFF
  omega

/-- Timers stop at zero, so they stay bytes. -/
theorem tickTimers (valid : registers.Valid) : registers.tickTimers.Valid := by
  -- A timer that has run out stays at zero.
  obtain ⟨bottom, top⟩ := valid.delay
  obtain ⟨floor, ceiling⟩ := valid.sound
  refine { valid with delay := ?_, sound := ?_ }
  · show 0 ≤ max 0 (registers.delayTimer - 1) ∧ max 0 (registers.delayTimer - 1) ≤ 0xFF
    omega
  · show 0 ≤ max 0 (registers.soundTimer - 1) ∧ max 0 (registers.soundTimer - 1) ≤ 0xFF
    omega

/-- A wait names its register. -/
theorem awaitKey (valid : registers.Valid) (index : Int) :
    ({ registers with mode := .awaitingKey, keyRegister := some index }).Valid :=
  { valid with target := rfl }

/-- A machine that goes on names no register. -/
theorem resume (valid : registers.Valid) : registers.resume.Valid :=
  { valid with target := rfl }

/-- A machine that has stopped names no register. -/
theorem halt (valid : registers.Valid) : registers.halt.Valid :=
  { valid with target := rfl }

/-- The count of cycles has no upper end. -/
theorem countCycle (valid : registers.Valid) : registers.countCycle.Valid := by
  -- Cycles have no upper bound.
  have counted := valid.cycles
  refine { valid with cycles := ?_ }
  show 0 ≤ registers.cycleCount + 1
  omega

end Valid

/-! ### Setters -/

/-- One use of a register file by its host, with values of any size. -/
inductive Setter where
  | set (x : Nibble) (value : Int)
  | setAll (writes : List (Nibble × Int))
  | setIndex (value : Int)
  | advanceBy (count : Int)
  | jump (address : Int)
  | pushFrame (address : Int)
  | popFrame
  | setDelay (value : Int)
  | setSound (value : Int)
  | tickTimers
  | awaitKey (x : Nibble)
  | resume
  | setHalted (halted : Bool)
  | countCycle
  deriving DecidableEq

/-- The register file that a setter answers with. -/
def Setter.apply (setter : Setter) (registers : Registers) : Except Fault Registers :=
  match setter with
  | .set x value => registers.set x.val value
  | .setAll writes => registers.setAll (writes.map fun write => ((write.1.val : Int), write.2))
  | .setIndex value => .ok (registers.setIndex value)
  | .advanceBy count => .ok (registers.advanceBy count)
  | .jump address => .ok (registers.jump address)
  | .pushFrame address => registers.pushFrame address
  | .popFrame => registers.popFrame.map Prod.snd
  | .setDelay value => .ok (registers.setDelay value)
  | .setSound value => .ok (registers.setSound value)
  | .tickTimers => .ok registers.tickTimers
  | .awaitKey x => registers.awaitKey x.val
  | .resume => .ok registers.resume
  | .setHalted halted => .ok (if halted then registers.halt else registers.resume)
  | .countCycle => .ok registers.countCycle

/-- A full ring has no frame beyond its sixteen places. -/
theorem Full.popFrame_beyond (full : registers.Full) (beyond : 15 < registers.sp) :
    registers.popFrame = .error .missingEntry := by
  -- A pointer that is not negative is taken as it is, and here it is past the last frame.
  have forward : ¬registers.sp < 0 := by omega
  have absent : registers.stack[registers.sp.toNat]? = none := by
    apply List.getElem?_eq_none
    rw [full.frames]
    omega
  simp only [popFrame, frameAt, if_neg forward, absent, error_bind]

/-- On a valid file every setter answers with a valid file, if a frame to give up is in the ring. -/
theorem Valid.apply (valid : registers.Valid) (setter : Setter)
    (inRing : setter = .popFrame → registers.sp ≤ 15) :
    ∃ result, setter.apply registers = .ok result ∧ result.Valid := by
  have full := valid.toFull
  cases setter with
  | set x value => exact ⟨_, full.set_eq x value, valid.writeAll [(x.val, value)]⟩
  | setAll writes =>
    refine ⟨_, setAll_of_general full.general ?_, valid.writeAll _⟩
    -- A nibble names one of the sixteen registers.
    intro write member
    obtain ⟨⟨x, value⟩, -, rfl⟩ := List.mem_map.mp member
    show 0 ≤ (x.val : Int) ∧ (x.val : Int) < 16
    omega
  | setIndex value => exact ⟨_, rfl, valid.setIndex value⟩
  | advanceBy count => exact ⟨_, rfl, valid.advanceBy count⟩
  | jump address => exact ⟨_, rfl, valid.jump address⟩
  | pushFrame address => exact ⟨_, full.pushFrame_eq address, valid.push address⟩
  | popFrame =>
    have popped := full.popFrame_eq valid.pointer.1 (inRing rfl)
    exact ⟨_, by rw [Setter.apply, popped]; rfl, valid.pop⟩
  | setDelay value => exact ⟨_, rfl, valid.setDelay value⟩
  | setSound value => exact ⟨_, rfl, valid.setSound value⟩
  | tickTimers => exact ⟨_, rfl, valid.tickTimers⟩
  | awaitKey x => exact ⟨_, awaitKey_eq registers x, valid.awaitKey x.val⟩
  | resume => exact ⟨_, rfl, valid.resume⟩
  | setHalted halted =>
    cases halted with
    | true => exact ⟨_, rfl, valid.halt⟩
    | false => exact ⟨_, rfl, valid.resume⟩
  | countCycle => exact ⟨_, rfl, valid.countCycle⟩

end Registers

end Chip8
