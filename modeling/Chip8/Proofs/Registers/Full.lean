import Chip8.Execution
import Chip8.Proofs.Memory

/-!
Register operations on a full file of sixteen registers and sixteen frames.

No operation of an instruction is refused there, but for a return whose frame is outside the ring.
-/

namespace Chip8

namespace Registers

/-- Sixteen general registers and sixteen saved frames, whatever they hold. -/
structure Full (registers : Registers) : Prop where
  /-- Each register that an instruction can name exists. -/
  general : registers.v.length = 16
  /-- Each place of the ring exists. -/
  frames : registers.stack.length = 16

/-- The value of a register of a full file, read without a check. -/
def reg (registers : Registers) (x : Nibble) : Int :=
  registers.v.getD x.val 0

/-- General registers after several writes, of which the last to a register wins. -/
def writeAll (v : List Int) : List (Int × Int) → List Int
  | [] => v
  | write :: rest => writeAll (v.set write.1.toNat (write.2 % 256)) rest

/-- Entries stay in a range when one is overwritten within it. -/
theorem range_set {entries : List Int} {top value : Int}
    (range : ∀ entry ∈ entries, 0 ≤ entry ∧ entry ≤ top) (place : Nat)
    (fits : 0 ≤ value ∧ value ≤ top) :
    ∀ entry ∈ entries.set place value, 0 ≤ entry ∧ entry ≤ top := by
  intro entry member
  -- An entry of the new list is an old one or the new value.
  rcases List.mem_or_eq_of_mem_set member with old | rfl
  · exact range entry old
  · exact fits

/-- Several writes change no length. -/
theorem length_writeAll (v : List Int) (writes : List (Int × Int)) :
    (writeAll v writes).length = v.length := by
  -- Each write overwrites an entry or does nothing.
  induction writes generalizing v with
  | nil => rfl
  | cons write rest ih => rw [writeAll, ih, List.length_set]

/-- Several writes keep bytes bytes, as each value is cut to one. -/
theorem range_writeAll {v : List Int} (range : ∀ value ∈ v, 0 ≤ value ∧ value ≤ 0xFF)
    (writes : List (Int × Int)) : ∀ value ∈ writeAll v writes, 0 ≤ value ∧ value ≤ 0xFF := by
  induction writes generalizing v with
  | nil => exact range
  | cons write rest ih => exact ih (range_set range write.1.toNat (by omega))

/-- The place of a register that an instruction names is its number. -/
@[simp]
theorem place_nibble (x : Nibble) : place x.val = .ok x.val := by
  -- Every number below sixteen names a register.
  have bounded : (x.val : Int) < 16 := by omega
  simp [place, bounded]

/-! ### Changes beside the general registers -/

section Beside

variable (change : Registers → Registers) (same : ∀ registers, (change registers).v = registers.v)
  (apart : ∀ registers v, { change registers with v } = change { registers with v })

include same apart

/-- A register is set before a change of other fields as it is behind it. -/
theorem set_comm (registers : Registers) (index value : Int) :
    (change registers).set index value = (registers.set index value).map change := by
  -- Whether there is such a register is decided by the number and the length of the list.
  unfold set
  cases place index with
  | error fault => rfl
  | ok place =>
    simp only [ok_bind, same]
    split
    · exact congrArg Except.ok (apart registers _)
    · rfl

/-- Several registers are set before a change of other fields as they are behind it. -/
theorem setAll_comm (registers : Registers) (writes : List (Int × Int)) :
    (change registers).setAll writes = (registers.setAll writes).map change := by
  -- Each write hands its file on to the next.
  induction writes generalizing registers with
  | nil => rfl
  | cons write rest ih =>
    rw [setAll, setAll, set_comm change same apart]
    cases registers.set write.1 write.2 with
    | error fault => rfl
    | ok written => exact ih written

end Beside

variable {registers : Registers}

/-! ### Sixteen general registers beside any frames -/

section General

variable (general : registers.v.length = 16)

include general

/-- The number of a register that an instruction names is a place of the list. -/
theorem inside_of_general (x : Nibble) : x.val < registers.v.length := by
  -- No nibble is beyond the last of sixteen places.
  rw [general]
  exact x.isLt

/-- Sixteen registers answer for every register that an instruction names. -/
theorem value_of_general (x : Nibble) : registers.value x = .ok (registers.reg x) := by
  -- The number of the register is a place of the list.
  have inside := inside_of_general general x
  simp [value, peek, reg, List.getElem?_eq_getElem inside, List.getD_eq_getElem?_getD]

/-- A register of sixteen bytes holds a byte. -/
theorem range_of_general (range : ∀ value ∈ registers.v, 0 ≤ value ∧ value ≤ 0xFF) (x : Nibble) :
    0 ≤ registers.reg x ∧ registers.reg x ≤ 0xFF := by
  -- A register that an instruction names is an entry of the list.
  have inside := inside_of_general general x
  simpa [reg, List.getD_eq_getElem?_getD, List.getElem?_eq_getElem inside] using
    range _ (List.getElem_mem inside)

/-- A register that is written holds the value, and the others hold what they held. -/
theorem reg_write (x other : Nibble) (value : Int) :
    ({ registers with v := registers.v.set x.val value }).reg other =
      if other = x then value else registers.reg other := by
  -- Two registers are the same if their numbers are.
  have inside := inside_of_general general x
  simp only [reg, List.getD_eq_getElem?_getD, List.getElem?_set]
  by_cases same : other = x
  · subst same
    simp [inside]
  · have apart : ¬x.val = other.val := fun equal => same (Fin.ext equal.symm)
    simp [same, apart]

/-- Sixteen registers take a value for every register that an instruction names. -/
theorem set_of_general (x : Nibble) (value : Int) :
    registers.set x.val value =
      .ok { registers with v := registers.v.set x.val (value % 256) } := by
  -- The number of the register is a place of the list.
  have inside := inside_of_general general x
  simp [set, inside]

/-- One of sixteen registers can be loaded. -/
theorem load_of_general (x : Nibble) (value : Int) :
    registers.load x value =
      .ok { registers with v := registers.v.set x.val (value % 256) }.advance := by
  -- The write cannot fail, and the counter moves on behind it.
  simp [load, set_of_general general]

/-- One of sixteen registers and then the flag can be loaded. -/
theorem loadWithFlag_of_general (x : Nibble) (value : Int) (flag : Bool) :
    registers.loadWithFlag x value flag =
      .ok { registers with
        v := (registers.v.set x.val (value % 256)).set 15 (flag.toInt % 256) }.advance := by
  -- The flag register is written second, when there are still sixteen.
  have second : ({ registers with v := registers.v.set x.val (value % 256) }).set 15 flag.toInt =
      .ok { registers with
        v := (registers.v.set x.val (value % 256)).set 15 (flag.toInt % 256) } :=
    set_of_general (List.length_set.trans general) 15 flag.toInt
  simp [loadWithFlag, setAll, set_of_general general, flagIndex, second]

/-- Two of sixteen registers can be combined. -/
theorem combine_of_general (operator : Nat → Nat → Nat) (x y : Nibble) :
    registers.combine operator x y = registers.load x
      (operator (Byte.ofInt (registers.reg x)).val (Byte.ofInt (registers.reg y)).val : Nat) := by
  -- Both operands are there, and each is cut to its byte.
  simp [combine, value_of_general general]

/-- Writes to numbered registers succeed in order and touch nothing else. -/
theorem setAll_of_general {writes : List (Int × Int)}
    (named : ∀ write ∈ writes, 0 ≤ write.1 ∧ write.1 < 16) :
    registers.setAll writes = .ok { registers with v := writeAll registers.v writes } := by
  -- Each write leaves sixteen registers for the writes behind it.
  induction writes generalizing registers with
  | nil => rfl
  | cons write rest ih =>
    obtain ⟨low, high⟩ := named write (by simp)
    have first := set_of_general general ⟨write.1.toNat, by omega⟩ write.2
    simp only [Int.toNat_of_nonneg low] at first
    have later := @ih { registers with v := registers.v.set write.1.toNat (write.2 % 256) }
      (List.length_set.trans general) fun other member => named other (by simp [member])
    simp [setAll, first, later, writeAll]

end General

namespace Full

/-- A register of a full file of bytes holds a byte. -/
theorem reg_range (full : registers.Full)
    (range : ∀ value ∈ registers.v, 0 ≤ value ∧ value ≤ 0xFF) (x : Nibble) :
    0 ≤ registers.reg x ∧ registers.reg x ≤ 0xFF :=
  range_of_general full.general range x

/-- A full file answers for every register that an instruction names. -/
theorem value_eq (full : registers.Full) (x : Nibble) :
    registers.value x = .ok (registers.reg x) :=
  value_of_general full.general x

/-- A full file answers for the register that offsets a jump. -/
theorem peek_zero (full : registers.Full) : registers.peek 0 = .ok (registers.reg 0) :=
  full.value_eq 0

/-- A full file takes a value for every register that an instruction names. -/
theorem set_eq (full : registers.Full) (x : Nibble) (value : Int) :
    registers.set x.val value =
      .ok { registers with v := registers.v.set x.val (value % 256) } :=
  set_of_general full.general x value

/-- A register can be loaded in a full file. -/
theorem load_eq (full : registers.Full) (x : Nibble) (value : Int) :
    registers.load x value =
      .ok { registers with v := registers.v.set x.val (value % 256) }.advance :=
  load_of_general full.general x value

/-- A register and then the flag can be loaded in a full file. -/
theorem loadWithFlag_eq (full : registers.Full) (x : Nibble) (value : Int) (flag : Bool) :
    registers.loadWithFlag x value flag =
      .ok { registers with
        v := (registers.v.set x.val (value % 256)).set 15 (flag.toInt % 256) }.advance :=
  loadWithFlag_of_general full.general x value flag

/-- Two registers of a full file can be combined. -/
theorem combine_eq (full : registers.Full) (operator : Nat → Nat → Nat) (x y : Nibble) :
    registers.combine operator x y = registers.load x
      (operator (Byte.ofInt (registers.reg x)).val (Byte.ofInt (registers.reg y)).val : Nat) :=
  combine_of_general full.general operator x y

/-- A full ring takes a frame at every place of the stack pointer. -/
theorem pushFrame_eq (full : registers.Full) (address : Int) :
    registers.pushFrame address = .ok { registers with
      sp := (registers.sp + 1) % 16
      stack := registers.stack.set ((registers.sp + 1) % 16).toNat (address % 65536) } := by
  -- The next place is a remainder, so it is one of the sixteen.
  have inside : ((registers.sp + 1) % 16).toNat < registers.stack.length := by
    rw [full.frames]
    omega
  simp [pushFrame, inside]

/-- A full ring gives the frame at a stack pointer that is one of its places. -/
theorem popFrame_eq (full : registers.Full) (low : 0 ≤ registers.sp) (high : registers.sp ≤ 15) :
    registers.popFrame =
      .ok (registers.stack.getD registers.sp.toNat 0,
        { registers with sp := (registers.sp - 1) % 16 }) := by
  -- The stack pointer is a place of the ring by assumption, not by a remainder.
  have inside : registers.sp.toNat < registers.stack.length := by
    rw [full.frames]
    omega
  simp [popFrame, frameAt, Int.not_lt.mpr low, List.getElem?_eq_getElem inside,
    List.getD_eq_getElem?_getD]

end Full

/-- A wait can begin for every register that an instruction names. -/
theorem awaitKey_eq (registers : Registers) (x : Nibble) :
    registers.awaitKey x.val =
      .ok { registers with mode := .awaitingKey, keyRegister := some x.val } := by
  -- The number is checked before the file changes, and every nibble passes.
  simp [awaitKey]

end Registers

end Chip8
