import Chip8.Proofs.Memory
import Chip8.Proofs.Registers.Full

/-!
The ranges in which a program keeps its register file.

They are narrower than the widths of the fields, because only addresses that were fetched from are
saved as frames and only twelve-bit addresses are loaded.
-/

namespace Chip8

namespace Registers

/-- The ranges that instructions and ticks keep in a machine with a given entry point. -/
structure Bounded (entry : Int) (registers : Registers) : Prop extends registers.Full where
  /-- Every general register holds a byte. -/
  bytes : ∀ value ∈ registers.v, 0 ≤ value ∧ value ≤ 0xFF
  /-- The address register holds twelve bits. -/
  index : 0 ≤ registers.i ∧ registers.i ≤ 0xFFF
  /-- Beyond the entry point, the program counter is at most the farthest indexed jump. -/
  counter : registers.pc = entry ∨ (0 ≤ registers.pc ∧ registers.pc ≤ 0x10FE)
  /-- The stack pointer is a place of the ring. -/
  pointer : 0 ≤ registers.sp ∧ registers.sp ≤ 15
  /-- Every frame is the address of a call that was fetched, or has never been saved. -/
  calls : ∀ frame ∈ registers.stack, Fetchable frame
  /-- The delay timer holds a byte. -/
  delay : 0 ≤ registers.delayTimer ∧ registers.delayTimer ≤ 0xFF
  /-- The sound timer holds a byte. -/
  sound : 0 ≤ registers.soundTimer ∧ registers.soundTimer ≤ 0xFF
  /-- Cycles are only counted up. -/
  cycles : 0 ≤ registers.cycleCount

variable {entry : Int} {registers : Registers}

/-- A register file at power-on is in its ranges, wherever it enters. -/
theorem atEntry_bounded (entry : Int) : (atEntry entry).Bounded entry := by
  -- Everything but the program counter is zero.
  constructor <;> simp [atEntry, Fetchable]
  constructor <;> rfl

namespace Bounded

/-- A register of a bounded file holds a byte. -/
theorem reg_range (bounded : registers.Bounded entry) (x : Nibble) :
    0 ≤ registers.reg x ∧ registers.reg x ≤ 0xFF :=
  bounded.toFull.reg_range bounded.bytes x

/-- A truncated write keeps the general registers bytes. -/
theorem write (bounded : registers.Bounded entry) (place : Nat) (value : Int) :
    ({ registers with v := registers.v.set place (value % 256) }).Bounded entry :=
  { bounded with
    general := List.length_set.trans bounded.general
    bytes := range_set bounded.bytes place (by omega) }

/-- Truncated writes keep the general registers bytes. -/
theorem writeAll (bounded : registers.Bounded entry) (writes : List (Int × Int)) :
    ({ registers with v := Registers.writeAll registers.v writes }).Bounded entry :=
  { bounded with
    general := (length_writeAll registers.v writes).trans bounded.general
    bytes := range_writeAll bounded.bytes writes }

/-- Moving on by at most two instructions from a fetched address stays below the farthest jump. -/
theorem advanceBy (bounded : registers.Bounded entry) (fetched : Fetchable registers.pc)
    {count : Int} (low : 0 ≤ count) (high : count ≤ 2) :
    (registers.advanceBy count).Bounded entry := by
  -- Two instructions beyond the last fetched address lie far below an indexed jump.
  obtain ⟨bottom, top⟩ := fetched
  refine { bounded with counter := .inr ?_ }
  simp only [Registers.advanceBy]
  omega

/-- Moving on by one instruction from a fetched address stays below the farthest jump. -/
theorem advance (bounded : registers.Bounded entry) (fetched : Fetchable registers.pc) :
    registers.advance.Bounded entry :=
  bounded.advanceBy fetched (by decide) (by decide)

/-- A skip moves on by one or two instructions. -/
theorem skipIf (bounded : registers.Bounded entry) (fetched : Fetchable registers.pc)
    (condition : Bool) : (registers.skipIf condition).Bounded entry := by
  -- The count is one or two, whichever way the condition went.
  unfold Registers.skipIf
  cases condition
  · exact bounded.advanceBy fetched (by decide) (by decide)
  · exact bounded.advanceBy fetched (by decide) (by decide)

/-- A jump within the reach of an indexed jump keeps the ranges. -/
theorem jump (bounded : registers.Bounded entry) {address : Int} (low : 0 ≤ address)
    (high : address ≤ 0x10FE) : (registers.jump address).Bounded entry := by
  -- Only the counter changes.
  refine { bounded with counter := .inr ?_ }
  simp only [Registers.jump]
  omega

/-- Twelve bits in the address register keep the ranges. -/
theorem setIndex (bounded : registers.Bounded entry) {value : Int} (low : 0 ≤ value)
    (high : value ≤ 0xFFF) : (registers.setIndex value).Bounded entry := by
  -- Only the address register changes.
  refine { bounded with index := ?_ }
  simp only [Registers.setIndex]
  omega

/-- Saving an address that was fetched keeps the frames fetchable. -/
theorem push (bounded : registers.Bounded entry) {address : Int} (fetched : Fetchable address) :
    ({ registers with
      sp := (registers.sp + 1) % 16
      stack := registers.stack.set ((registers.sp + 1) % 16).toNat (address % 65536)
      }).Bounded entry := by
  obtain ⟨bottom, top⟩ := fetched
  refine { bounded with
    frames := by simpa using bounded.frames
    pointer := ⟨by simp only; omega, by simp only; omega⟩
    calls := ?_ }
  intro frame member
  rcases List.mem_or_eq_of_mem_set member with old | rfl
  · exact bounded.calls frame old
  · -- A fetched address is far below sixteen bits.
    constructor <;> omega

/-- Giving up the newest frame keeps the stack pointer in the ring. -/
theorem pop (bounded : registers.Bounded entry) :
    ({ registers with sp := (registers.sp - 1) % 16 }).Bounded entry :=
  { bounded with pointer := ⟨by simp only; omega, by simp only; omega⟩ }

/-- The newest frame is an address that was fetched. -/
theorem top_fetchable (bounded : registers.Bounded entry) :
    Fetchable (registers.stack.getD registers.sp.toNat 0) := by
  -- The stack pointer is a place of the ring, so the frame is one of its entries.
  have inside : registers.sp.toNat < registers.stack.length := by
    have pointer := bounded.pointer
    rw [bounded.frames]
    omega
  simpa [List.getD_eq_getElem?_getD, List.getElem?_eq_getElem inside] using
    bounded.calls _ (List.getElem_mem inside)

/-- A truncated delay keeps the ranges. -/
theorem setDelay (bounded : registers.Bounded entry) (value : Int) :
    (registers.setDelay value).Bounded entry := by
  -- The value was cut to a byte on its way in.
  refine { bounded with delay := ?_ }
  simp only [Registers.setDelay]
  omega

/-- A truncated sound duration keeps the ranges. -/
theorem setSound (bounded : registers.Bounded entry) (value : Int) :
    (registers.setSound value).Bounded entry := by
  -- The value was cut to a byte on its way in.
  refine { bounded with sound := ?_ }
  simp only [Registers.setSound]
  omega

/-- Counting down stops at zero, so both timers stay bytes. -/
theorem tickTimers (bounded : registers.Bounded entry) : registers.tickTimers.Bounded entry := by
  -- A timer that does not move is in its range already.
  have delay := bounded.delay
  have sound := bounded.sound
  refine { bounded with delay := ?_, sound := ?_ }
  · simp only [Registers.tickTimers]; omega
  · simp only [Registers.tickTimers]; omega

/-- One more cycle keeps the ranges. -/
theorem countCycle (bounded : registers.Bounded entry) : registers.countCycle.Bounded entry := by
  -- Only the count changes, and it has no upper end.
  have cycles := bounded.cycles
  refine { bounded with cycles := ?_ }
  simp only [Registers.countCycle]
  omega

end Bounded

end Registers

end Chip8
