import Chip8.Dispatch
import Chip8.Proofs.Execution
import Chip8.Proofs.Registers.Valid

/-!
What the check of a register file promises to the instructions.

A valid file is executed to a valid file or refused for a reason of the guest program, except that
a return needs its stack pointer to be a place of the ring, which the check does not ask for.
-/

namespace Chip8

variable {registers result : Registers} {board left : Board} {word : Word} {fault : Fault}

/-- A change of a valid file is valid. -/
theorem Registers.Change.valid (change : registers.Change result) (valid : registers.Valid) :
    result.Valid := by
  -- One case for each way in which a word changes the file.
  cases change with
  | skip condition => exact valid.advanceBy _
  | write writes => exact (valid.writeAll writes).advanceBy 1
  | jump _ _ => exact valid.jump _
  | call target => exact (valid.push registers.pc).jump _
  | ret => exact (valid.pop.jump _).advanceBy 1
  | index _ _ => exact (valid.setIndex _).advanceBy 1
  | delay value => exact (valid.setDelay value).advanceBy 1
  | sound value => exact (valid.setSound value).advanceBy 1
  | wait x => exact valid.awaitKey x.val

/-- A valid pointer that is not beyond the ring is a place of it when a return is performed. -/
theorem Registers.Valid.place_of_return (valid : registers.Valid) {instruction : Instruction}
    (inRing : word.decode = some .ret → registers.sp ≤ 15)
    (decoded : word.decode = some instruction) (returns : instruction.operation = .ret) :
    0 ≤ registers.sp ∧ registers.sp ≤ 15 := by
  -- A return is the only instruction of its operation.
  cases instruction with
  | ret => exact ⟨valid.pointer.1, inRing decoded⟩
  | _ => cases returns

/-- An executed word leaves a valid file valid. -/
theorem execute_valid (valid : registers.Valid)
    (inRing : word.decode = some .ret → registers.sp ≤ 15)
    (done : execute word registers board = (.ok result, left)) : result.Valid := by
  obtain ⟨instruction, moved, decoded, performed, rfl⟩ := execute_done done
  -- Of a change only its ranges matter, and counting the cycle keeps them too.
  have change := Operation.perform_change valid.toFull (valid.reg_range valid.bytes 0)
    instruction.operation (valid.place_of_return inRing decoded) performed
  exact (change.valid valid).countCycle

/-- A word is refused on a valid file by memory, or because it has no instruction. -/
theorem execute_valid_refused (valid : registers.Valid)
    (inRing : word.decode = some .ret → registers.sp ≤ 15)
    (refused : execute word registers board = (.error fault, left)) :
    (∃ access location, fault = .outOfBounds access location) ∨
      fault = .unknownOpcode word (some registers.pc) := by
  -- The only place that can be missing is the top frame, which a return inside the ring has.
  rcases execute_refused refused with ⟨unknown, -⟩ | ⟨instruction, decoded, refused⟩
  · exact .inr unknown
  · have place := valid.place_of_return inRing decoded
    exact .inl (Operation.perform_refused_fault valid.toFull instruction.operation place refused)

/-- A return is refused if its stack pointer is beyond the ring. -/
theorem execute_return_beyond (full : registers.Full) (beyond : 15 < registers.sp)
    (returns : word.decode = some .ret) :
    execute word registers board = (.error .missingEntry, board) := by
  -- The pop reads the missing place before anything is stored.
  have popped := full.popFrame_beyond beyond
  rw [Word.execute_of_decode returns]
  simp only [Instruction.perform, Instruction.operation, Operation.perform, popped, error_bind]
  rfl

/--
The check of a register file is sound for execution, but for a stack pointer beyond the ring.

A valid file is executed to a valid file, or the word is refused by memory or for want of an
instruction, and then the board stays as it was.
Every setter answers with a valid file.
The exception is a pointer above fifteen, which the check allows: there a return, and the setter
that gives up a frame, are refused for a frame that does not exist.
-/
theorem valid_file_executes (registers : Registers) (valid : registers.isValid = true) :
    (∀ (word : Word) (board : Board), ¬(word.decode = some .ret ∧ 15 < registers.sp) →
      (∃ result left, DispatchTable.standard.execute word registers board = (.ok result, left) ∧
        result.isValid = true) ∨
      ∃ fault, DispatchTable.standard.execute word registers board = (.error fault, board) ∧
        ((∃ access location, fault = .outOfBounds access location) ∨
          fault = .unknownOpcode word (some registers.pc))) ∧
    (∀ setter : Registers.Setter, ¬(setter = .popFrame ∧ 15 < registers.sp) →
      ∃ result, setter.apply registers = .ok result ∧ result.isValid = true) ∧
    (15 < registers.sp →
      (∀ (word : Word) (board : Board), word.decode = some .ret →
        DispatchTable.standard.execute word registers board = (.error .missingEntry, board)) ∧
      Registers.Setter.popFrame.apply registers = .error .missingEntry) := by
  have ranges := Registers.isValid_iff.mp valid
  refine ⟨?_, ?_, ?_⟩
  -- A word is executed as by the table, and its outcome is told apart.
  · intro word board inRing
    have pointer : word.decode = some .ret → registers.sp ≤ 15 := by
      intro returns
      have near : ¬15 < registers.sp := fun beyond => inRing ⟨returns, beyond⟩
      omega
    rw [DispatchTable.execute_standard]
    rcases executed : execute word registers board with ⟨result | result, left⟩
    · refine .inr ⟨result, ?_, execute_valid_refused ranges pointer executed⟩
      rw [execute_refused_board ranges.toFull executed]
    · exact .inl ⟨result, left, rfl,
        Registers.isValid_iff.mpr (execute_valid ranges pointer executed)⟩
  · intro setter inRing
    have pointer : setter = .popFrame → registers.sp ≤ 15 := by
      intro pops
      have near : ¬15 < registers.sp := fun beyond => inRing ⟨pops, beyond⟩
      omega
    -- Within the ring a pop finds its frame, and no other setter can miss its place.
    obtain ⟨result, applied, kept⟩ := ranges.apply setter pointer
    exact ⟨result, applied, Registers.isValid_iff.mpr kept⟩
  · -- Beyond the ring neither the instruction nor the setter finds a frame.
    intro beyond
    refine ⟨?_, ?_⟩
    · intro word board returns
      rw [DispatchTable.execute_standard]
      exact execute_return_beyond ranges.toFull beyond returns
    · rw [Registers.Setter.apply, ranges.toFull.popFrame_beyond beyond]
      rfl

/-- A valid register file whose stack pointer is the first beyond the ring. -/
def strayed : Registers :=
  { sp := 16, stack := 0x300 :: List.replicate 15 0 }

/-- A board with nothing on it. -/
def emptyBoard : Board :=
  { memory := .fresh, display := .blank .wide32, keypad := .idle, random := .script [] }

/-- A pointer beyond the ring does not hinder saving a frame, but returning to one. -/
theorem valid_file_executes_strayed :
    strayed.isValid = true ∧
      (∃ result, Registers.Setter.apply (.pushFrame 0x1234) strayed = .ok result ∧
        result.isValid = true) ∧
      DispatchTable.standard.execute 0x00EE strayed emptyBoard =
        (.error .missingEntry, emptyBoard) := by
  have valid : strayed.isValid = true := by decide
  have beyond : 15 < strayed.sp := by decide
  obtain ⟨-, setters, stray⟩ := valid_file_executes strayed valid
  exact ⟨valid, setters (.pushFrame 0x1234) (by decide), (stray beyond).1 _ _ (by decide)⟩

/-- The check passes a file on which a return and giving up a frame fail for a missing frame. -/
theorem missing_frame_in_valid_file :
    strayed.isValid = true ∧
      DispatchTable.standard.execute 0x00EE strayed emptyBoard =
        (.error .missingEntry, emptyBoard) ∧
      Registers.Setter.popFrame.apply strayed = .error .missingEntry := by
  refine ⟨by decide, ?_, rfl⟩
  rw [DispatchTable.execute_standard]
  exact execute_return_beyond ⟨rfl, rfl⟩ (by decide) (by decide)

end Chip8
