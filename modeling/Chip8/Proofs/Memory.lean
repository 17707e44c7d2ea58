import Chip8.Memory
import Chip8.Proofs.Refusal

/-! When memory answers to a read, and what it says when it refuses one. -/

namespace Chip8

/-- An address at which a whole instruction word can be fetched. -/
def Fetchable (address : Int) : Prop :=
  0 ≤ address ∧ address ≤ 0xFFE

namespace Memory

variable {memory : Memory} {fault : Fault}

/-- A refused read says which address was outside. -/
theorem checkRead_error {address : Int} (refused : checkRead address = .error fault) :
    fault = .outOfBounds .read address := by
  -- There is one way to refuse, and it names the address.
  unfold checkRead at refused
  split at refused
  · cases refused
  · exact (Except.error.inj refused).symm

/-- A refused write says which address was outside. -/
theorem checkWrite_error {address : Int} (refused : checkWrite address = .error fault) :
    fault = .outOfBounds .write address := by
  -- There is one way to refuse, and it names the address.
  unfold checkWrite at refused
  split at refused
  · cases refused
  · exact (Except.error.inj refused).symm

/-- A read passes the check exactly inside the memory. -/
theorem checkRead_eq_ok {address : Int} {answer : Unit} :
    checkRead address = .ok answer ↔ 0 ≤ address ∧ address < 4096 := by
  -- The size as an integer lets the check and the statement be compared.
  have size : (memorySize : Int) = 4096 := rfl
  unfold checkRead
  rw [size]
  split <;> simp [*]

/-- A write passes the check exactly in the writable part of memory. -/
theorem checkWrite_eq_ok {address : Int} {answer : Unit} :
    checkWrite address = .ok answer ↔ 0x200 ≤ address ∧ address < 0x1000 := by
  -- The limits as integers let the check and the statement be compared.
  have start : (programStart : Int) = 0x200 := rfl
  have size : (memorySize : Int) = 0x1000 := rfl
  unfold checkWrite
  rw [start, size]
  split <;> simp [*]

/-- A word is fetched only where both of its bytes lie in memory. -/
theorem fetchable_of_readWord {address : Int} {word : Word}
    (done : memory.readWord address = .ok word) : Fetchable address := by
  -- Both bytes passed the check.
  simp only [readWord, bind_eq_ok, checkRead_eq_ok] at done
  obtain ⟨-, first, -, second, -⟩ := done
  constructor <;> omega

/-- A word is fetched wherever both of its bytes lie in memory. -/
theorem readWord_of_fetchable (memory : Memory) {address : Int} (fetchable : Fetchable address) :
    ∃ word, memory.readWord address = .ok word := by
  -- The second byte is the one behind, and the last address of the range has one.
  obtain ⟨low, high⟩ := fetchable
  have first : checkRead address = .ok () := checkRead_eq_ok.mpr ⟨low, by omega⟩
  have second : checkRead (address + 1) = .ok () := checkRead_eq_ok.mpr ⟨by omega, by omega⟩
  simp [readWord, first, second]

/-- A fetch is refused only because a byte lies outside. -/
theorem readWord_error {address : Int} (refused : memory.readWord address = .error fault) :
    ∃ location, fault = .outOfBounds .read location := by
  -- Behind both checks the word is there, so one of the two must have refused.
  simp only [readWord, bind_eq_error] at refused
  rcases refused with first | ⟨-, -, second | ⟨-, -, answered⟩⟩
  · exact ⟨_, checkRead_error first⟩
  · exact ⟨_, checkRead_error second⟩
  · cases answered

/-- A slice has a byte for each of its addresses. -/
@[simp]
theorem slice_length (memory : Memory) (first last : Nat) :
    (memory.slice first last).length = last - first := by
  rw [slice, List.length_map, List.length_range]

/-- A slice has the bytes of its addresses in their order. -/
theorem slice_eq_map (memory : Memory) (first last : Nat) :
    memory.slice first last = (List.range' first (last - first)).map memory.byteAt := by
  -- Each address is the first one and a distance from it.
  rw [slice, List.range'_eq_map_range, List.map_map]
  rfl

/-- A block that is read has the length that was asked for. -/
theorem readBlock_length {address length : Int} {bytes : List Byte}
    (done : memory.readBlock address length = .ok bytes) : bytes.length = length.toNat := by
  unfold readBlock at done
  split at done
  · -- No bytes were asked for.
    cases done
    simp only [List.length_nil]
    omega
  · simp only [bind_eq_ok, checkRead_eq_ok] at done
    obtain ⟨-, first, -, -, sliced⟩ := done
    cases sliced
    rw [slice_length]
    omega

/-- A block is refused only because one of its ends lies outside. -/
theorem readBlock_error {address length : Int}
    (refused : memory.readBlock address length = .error fault) :
    ∃ location, fault = .outOfBounds .read location := by
  -- Only the two ends are checked, and an empty block has none.
  unfold readBlock at refused
  split at refused
  · cases refused
  · simp only [bind_eq_error] at refused
    rcases refused with first | ⟨-, -, last | ⟨-, -, answered⟩⟩
    · exact ⟨_, checkRead_error first⟩
    · exact ⟨_, checkRead_error last⟩
    · cases answered

/-- A refused byte leaves the memory as it was. -/
theorem write_atomic (memory : Memory) (address value : Int) :
    Atomic memory (memory.write address value) := by
  -- The check comes before the byte is stored.
  intro refusal left refused
  unfold write at refused
  split at refused
  · exact (Prod.mk.inj refused).2.symm
  · cases refused

/-- A block is not stored only because one of its ends lies outside, and then nothing is. -/
theorem writeBlock_error {address : Int} {values : List Int} {left : Memory}
    (refused : memory.writeBlock address values = (.error fault, left)) :
    left = memory ∧ ∃ location, fault = .outOfBounds .write location := by
  -- Only the two ends are checked, and an empty block has none.
  unfold writeBlock at refused
  split at refused
  · cases refused
  · split at refused
    · rename_i first
      obtain ⟨cause, rfl⟩ := Prod.mk.inj refused
      exact ⟨rfl, _, Except.error.inj cause ▸ checkWrite_error first⟩
    · split at refused
      · rename_i last
        obtain ⟨cause, rfl⟩ := Prod.mk.inj refused
        exact ⟨rfl, _, Except.error.inj cause ▸ checkWrite_error last⟩
      · cases refused

/-- A refused block leaves the memory as it was. -/
theorem writeBlock_atomic (memory : Memory) (address : Int) (values : List Int) :
    Atomic memory (memory.writeBlock address values) :=
  fun _ _ refused => (writeBlock_error refused).1

/-! ### Images -/

variable {image : List Byte}

/-- An image is refused for its base or for its size, and then nothing is loaded. -/
theorem load_error {base : Int} {left : Memory}
    (refused : memory.load image base = (.error fault, left)) :
    left = memory ∧
      (fault = .outOfBounds .write base ∨
        ∃ limit, fault = .programTooLarge image.length limit) := by
  -- The base is checked first, and then whether the image fits.
  unfold load at refused
  split at refused
  · rename_i outside
    obtain ⟨cause, rfl⟩ := Prod.mk.inj refused
    exact ⟨rfl, .inl (Except.error.inj cause ▸ checkWrite_error outside)⟩
  · dsimp only at refused
    split at refused
    · obtain ⟨cause, rfl⟩ := Prod.mk.inj refused
      exact ⟨rfl, .inr ⟨_, (Except.error.inj cause).symm⟩⟩
    · cases refused

/-- A refused image leaves the memory as it was. -/
theorem load_atomic (memory : Memory) (image : List Byte) (base : Int) :
    Atomic memory (memory.load image base) :=
  fun _ _ refused => (load_error refused).1

/-- An image that ends within memory is loaded, with zeros around it. -/
theorem load_eq (memory : Memory) {base : Int} (low : programStart ≤ base)
    (high : base < memorySize) (fits : base + image.length ≤ memorySize) :
    memory.load image base = (.ok (), fresh.putAll base.toNat image) := by
  -- Both checks pass, and what is loaded into is memory at power-on.
  have writable : checkWrite base = .ok () := by rw [checkWrite, if_pos ⟨low, high⟩]
  have small : ¬image.length > (memorySize - base).toNat := by omega
  simp [load, writable, small, fresh]

/-- The bytes of an image stand behind each other from the base on. -/
theorem slice_putAll {address offset count : Nat} (writable : programStart ≤ address)
    (inside : address + image.length ≤ memorySize) (part : offset + count ≤ image.length) :
    (memory.putAll address image).slice (address + offset) (address + offset + count) =
      (image.drop offset).take count := by
  refine List.ext_getElem (by simp; omega) fun place first second => ?_
  rw [slice_length] at first
  -- Each address of the slice lies in the image, at the place's distance from its start.
  have held : address ≤ address + offset + place ∧
      address + offset + place < address + image.length := by omega
  have distance : address + offset + place - address = offset + place := by omega
  simp only [slice, List.getElem_map, List.getElem_range, byteAt_putAll memory writable inside,
    if_pos held, distance, List.getElem_take, List.getElem_drop]
  rw [List.getD_eq_getElem?_getD, List.getElem?_eq_getElem (by omega), Option.getD_some]

end Memory

end Chip8
