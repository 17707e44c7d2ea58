import Chip8.Proofs.Memory
import Chip8.Execution

/-!
Only a word without instruction is reported as unknown.

On a register file that its host has filled in freely an instruction may be refused in many ways,
but never for the reason that its word has no instruction.
-/

namespace Chip8

/-- The report of a word without instruction. -/
def Fault.isUnknown : Fault → Bool
  | .unknownOpcode .. => true
  | _ => false

/-- An answer does not report a word without instruction. -/
def Recognized {α : Type} (answer : Except Fault α) : Prop :=
  ∀ fault, answer = .error fault → fault.isUnknown = false

namespace Recognized

variable {α β : Type} {answer : Except Fault α} {fault : Fault}

/-- A value reports nothing. -/
theorem ok (value : α) : Recognized (.ok value) := by
  intro fault failed
  cases failed

/-- Any other fault reports something else. -/
theorem error (other : fault.isUnknown = false) : Recognized (.error fault : Except Fault α) := by
  intro cause failed
  obtain rfl := Except.error.inj failed
  exact other

/-- Of two parts in a row the first does not report a word, and neither does the second. -/
theorem bind {next : α → Except Fault β} (first : Recognized answer)
    (second : ∀ value, Recognized (next value)) : Recognized (answer >>= next) := by
  intro fault failed
  rcases bind_eq_error.mp failed with refused | ⟨value, -, refused⟩
  · exact first fault refused
  · exact second value fault refused

end Recognized

/-! ### Registers -/

namespace Registers

/-- Reading a register reports no word. -/
theorem recognized_peek (registers : Registers) (place : Nat) :
    Recognized (registers.peek place) := by
  -- At worst there is no such register.
  unfold peek
  split
  · exact .ok _
  · exact .error rfl

/-- Reading a register that an instruction names reports no word. -/
theorem recognized_value (registers : Registers) (x : Nibble) : Recognized (registers.value x) :=
  registers.recognized_peek x.val

/-- The number of a register reports no word. -/
theorem recognized_place (index : Int) : Recognized (place index) := by
  unfold place
  split
  · exact .ok _
  · exact .error rfl

/-- Writing a register reports no word. -/
theorem recognized_set (registers : Registers) (index value : Int) :
    Recognized (registers.set index value) := by
  -- The number may be wrong, or the list too short.
  refine (recognized_place index).bind fun place => ?_
  split
  · exact .ok _
  · exact .error rfl

/-- Writing several registers reports no word. -/
theorem recognized_setAll (registers : Registers) (writes : List (Int × Int)) :
    Recognized (registers.setAll writes) := by
  -- The writes are made in order, and the first that fails ends them.
  induction writes generalizing registers with
  | nil => exact .ok registers
  | cons write rest ih =>
    exact (registers.recognized_set write.1 write.2).bind fun written => ih written

/-- Loading a register reports no word. -/
theorem recognized_load (registers : Registers) (x : Nibble) (value : Int) :
    Recognized (registers.load x value) :=
  (registers.recognized_set x.val value).bind fun _ => .ok _

/-- Loading a register and the flag reports no word. -/
theorem recognized_loadWithFlag (registers : Registers) (x : Nibble) (value : Int) (flag : Bool) :
    Recognized (registers.loadWithFlag x value flag) :=
  (registers.recognized_setAll _).bind fun _ => .ok _

/-- Combining two registers reports no word. -/
theorem recognized_combine (registers : Registers) (operator : Nat → Nat → Nat) (x y : Nibble) :
    Recognized (registers.combine operator x y) :=
  (registers.recognized_value x).bind fun _ =>
    (registers.recognized_value y).bind fun _ => registers.recognized_load x _

/-- Saving a frame reports no word. -/
theorem recognized_pushFrame (registers : Registers) (address : Int) :
    Recognized (registers.pushFrame address) := by
  unfold pushFrame
  dsimp only
  split
  · exact .ok _
  · exact .error rfl

/-- Giving a frame up reports no word. -/
theorem recognized_popFrame (registers : Registers) : Recognized registers.popFrame := by
  have frame : Recognized (registers.frameAt registers.sp) := by
    -- Wherever the pointer leads, it may lie before the first frame or behind the last.
    unfold frameAt
    generalize (if registers.sp < 0 then registers.sp + registers.stack.length
      else registers.sp) = fromStart
    dsimp only
    split
    · exact .error rfl
    · split
      · exact .ok _
      · exact .error rfl
  exact frame.bind fun _ => .ok _

end Registers

/-! ### Memory -/

/-- Reading a block reports no word. -/
theorem Memory.recognized_readBlock (memory : Memory) (address length : Int) :
    Recognized (memory.readBlock address length) := by
  intro fault failed
  obtain ⟨location, rfl⟩ := Memory.readBlock_error failed
  rfl

/-- Storing a block reports no word. -/
theorem Board.recognized_storeBlock (board : Board) (registers : Registers) (values : List Int) :
    Recognized (board.storeBlock registers values).1 := by
  unfold Board.storeBlock
  -- Memory refuses a block for its end points only.
  rcases stored : board.memory.writeBlock registers.i values with ⟨fault | ⟨⟩, memory⟩
  · obtain ⟨-, location, rfl⟩ := Memory.writeBlock_error stored
    exact .error rfl
  · exact .ok _

/-- Loading a block reports no word. -/
theorem Board.recognized_loadBlock (board : Board) (registers : Registers) (count : Nat) :
    Recognized (board.loadBlock registers count) :=
  (board.memory.recognized_readBlock registers.i count).bind fun _ =>
    (registers.recognized_setAll _).bind fun _ => .ok _

/-- Placing a sprite reports no word. -/
theorem Board.recognized_spriteAt (board : Board) (registers : Registers) (x y rows : Nibble) :
    Recognized (board.spriteAt registers x y rows) :=
  (board.memory.recognized_readBlock registers.i rows.val).bind fun _ =>
    (registers.recognized_value x).bind fun _ =>
      (registers.recognized_value y).bind fun _ => .ok _

/-! ### Operations -/

/-- No operation reports a word. -/
theorem Operation.recognized_perform (operation : Operation) (fields : Word.Fields)
    (registers : Registers) (board : Board) :
    Recognized (operation.perform fields registers board).1 := by
  -- The cases are grouped by what they ask of the register file and of memory.
  cases operation with
  | clear | sys | jump | loadIndex => exact .ok _
  | ret => exact registers.recognized_popFrame.bind fun _ => .ok _
  | call => exact (registers.recognized_pushFrame _).bind fun _ => .ok _
  | jumpOffset => exact (registers.recognized_peek 0).bind fun _ => .ok _
  | skipIfByte | skipUnlessByte | skipIfKey | skipUnlessKey | addIndex | loadGlyph
  | setDelay | setSound => exact (registers.recognized_value fields.x).bind fun _ => .ok _
  | skipIfEqual | skipUnlessEqual =>
    exact (registers.recognized_value fields.x).bind fun _ =>
      (registers.recognized_value fields.y).bind fun _ => .ok _
  | loadByte | readDelay | random => exact registers.recognized_load fields.x _
  | addByte =>
    exact (registers.recognized_value fields.x).bind fun _ =>
      registers.recognized_load fields.x _
  | copy =>
    exact (registers.recognized_value fields.y).bind fun _ =>
      registers.recognized_load fields.x _
  | bitOr | bitAnd | bitXor => exact registers.recognized_combine _ fields.x fields.y
  | add | sub | subFrom =>
    exact (registers.recognized_value fields.x).bind fun _ =>
      (registers.recognized_value fields.y).bind fun _ =>
        registers.recognized_loadWithFlag fields.x _ _
  | shiftRight | shiftLeft =>
    exact (registers.recognized_value fields.x).bind fun _ =>
      registers.recognized_loadWithFlag fields.x _ _
  | storeDecimal =>
    have read := registers.recognized_value fields.x
    simp only [perform]
    split
    · exact board.recognized_storeBlock registers _
    · rename_i failed
      exact .error (read _ failed)
  | storeRegisters => exact board.recognized_storeBlock registers _
  | loadRegisters => exact board.recognized_loadBlock registers _
  | draw =>
    have placed := board.recognized_spriteAt registers fields.x fields.y fields.nibble
    simp only [perform]
    split
    · exact registers.recognized_load 15 _
    · rename_i failed
      exact .error (placed _ failed)
  | waitKey => exact (Registers.recognized_place fields.x.val).bind fun _ => .ok _

end Chip8
