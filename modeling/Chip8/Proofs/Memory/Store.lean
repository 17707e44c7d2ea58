import Chip8.Proofs.Memory

/-!
Memory as a map from addresses to bytes, whatever its host does with it.

The map begins with the font and zeros.
A use that is allowed leaves its bytes in the map, and any other use is refused and leaves nothing.
-/

namespace Chip8

/-- One use of a memory, with addresses, lengths and values of any size. -/
inductive MemoryUse where
  | write (address value : Int)
  | writeBlock (address : Int) (values : List Int)
  | load (image : List Byte) (base : Int)
  | read (address : Int)
  | readWord (address : Int)
  | readBlock (address length : Int)

/-- What a use of a memory answers if it is not refused. -/
inductive MemoryAnswer where
  | stored
  | byte (value : Byte)
  | word (value : Word)
  | block (bytes : List Byte)
  deriving DecidableEq

/-- The addresses at which an access is legal. -/
def Access.Permits : Access → Int → Prop
  | .read, address => 0 ≤ address ∧ address < 0x1000
  | .write, address => 0x200 ≤ address ∧ address < 0x1000

/-- Whether an access is legal at an address can be computed. -/
instance (access : Access) (address : Int) : Decidable (access.Permits address) :=
  match access with
  | .read => inferInstanceAs (Decidable (0 ≤ address ∧ address < 0x1000))
  | .write => inferInstanceAs (Decidable (0x200 ≤ address ∧ address < 0x1000))

namespace MemoryUse

/-- An attempt to store bytes is answered by no more than that it succeeded. -/
def stored (attempt : Except Fault Unit × Memory) : Except Fault MemoryAnswer × Memory :=
  (attempt.1.map fun () => .stored, attempt.2)

/-- Makes use of a memory: an answer or a refusal, and the memory that is left. -/
def perform (use : MemoryUse) (memory : Memory) : Except Fault MemoryAnswer × Memory :=
  match use with
  | .write address value => stored (memory.write address value)
  | .writeBlock address values => stored (memory.writeBlock address values)
  | .load image base => stored (memory.load image base)
  | .read address => ((memory.read address).map .byte, memory)
  | .readWord address => ((memory.readWord address).map .word, memory)
  | .readBlock address length => ((memory.readBlock address length).map .block, memory)

/-! ### Allowed uses -/

/-- Whether a use reads or writes. -/
def access : MemoryUse → Access
  | .write .. | .writeBlock .. | .load .. => .write
  | .read _ | .readWord _ | .readBlock .. => .read

/-- The first address of a use. -/
def place : MemoryUse → Int
  | .write address _ | .writeBlock address _ | .load _ address => address
  | .read address | .readWord address | .readBlock address _ => address

/-- The number of addresses of a use, and nothing is reached if it is zero or less. -/
def size : MemoryUse → Int
  | .write .. | .read _ => 1
  | .readWord _ => 2
  | .writeBlock _ values => values.length
  | .load image _ => image.length
  | .readBlock _ length => length

/-- The addresses of a use are those from its place on. -/
def Reaches (use : MemoryUse) (address : Int) : Prop :=
  use.place ≤ address ∧ address < use.place + use.size

/-- A use is allowed if its access is legal at all its addresses; an image needs a base as well. -/
def Allowed (use : MemoryUse) : Prop :=
  match use with
  | .load image base => (0x200 ≤ base ∧ base < 0x1000) ∧ base + image.length ≤ 0x1000
  | _ => ∀ address, use.Reaches address → use.access.Permits address

/-- The faults that tell why a use is not allowed. -/
def Explains (use : MemoryUse) (fault : Fault) : Prop :=
  match use with
  | .load image base =>
    (¬(0x200 ≤ base ∧ base < 0x1000) ∧ fault = .outOfBounds .write base) ∨
      (0x200 ≤ base ∧ base < 0x1000) ∧ fault = .programTooLarge image.length (0x1000 - base).toNat
  | _ =>
    ∃ address, use.Reaches address ∧ ¬use.access.Permits address ∧
      fault = .outOfBounds use.access address

/-- An access is legal on a run of addresses if it is legal at both ends. -/
theorem permits_run (access : Access) (place size : Int) :
    (∀ address, place ≤ address ∧ address < place + size → access.Permits address) ↔
      size ≤ 0 ∨ access.Permits place ∧ access.Permits (place + size - 1) := by
  constructor
  · intro all
    by_cases empty : size ≤ 0
    · exact .inl empty
    · exact .inr ⟨all place (by omega), all (place + size - 1) (by omega)⟩
  · -- Both windows are intervals, so what lies between two of their addresses lies in them too.
    intro ends address inside
    rcases ends with empty | ⟨first, last⟩
    · omega
    · cases access <;> simp only [Access.Permits] at first last ⊢ <;> omega

/-- Whether a use is allowed can be computed from both ends of its addresses. -/
instance (use : MemoryUse) : Decidable use.Allowed :=
  match use with
  | .load image base =>
    inferInstanceAs (Decidable ((0x200 ≤ base ∧ base < 0x1000) ∧ base + image.length ≤ 0x1000))
  | .write .. | .writeBlock .. | .read _ | .readWord _ | .readBlock .. =>
    decidable_of_iff _ (permits_run _ _ _).symm

/-! ### The map -/

/-- The byte that an allowed use leaves at an address, if it stores anything there. -/
def stores? (use : MemoryUse) (address : Int) : Option Byte :=
  match use with
  | .write place value => if address = place then some (.ofInt value) else none
  | .writeBlock place values =>
    if place ≤ address then (values[(address - place).toNat]?).map .ofInt else none
  | .load image base =>
    -- All writable bytes around the image become zero.
    if ¬(0x200 ≤ address ∧ address < 0x1000) then none
    else if base ≤ address then some (image.getD (address - base).toNat 0)
    else some 0
  | .read _ | .readWord _ | .readBlock .. => none

/-- What an allowed use answers on a map. -/
def answer (use : MemoryUse) (contents : Int → Byte) : MemoryAnswer :=
  match use with
  | .write .. | .writeBlock .. | .load .. => .stored
  | .read address => .byte (contents address)
  | .readWord address => .word (.ofBytes (contents address) (contents (address + 1)))
  | .readBlock address length =>
    .block ((List.range length.toNat).map fun (offset : Nat) => contents (address + offset))

end MemoryUse

/-- The byte that was last stored at an address by a use that was allowed, newest use first. -/
def lastStored : List MemoryUse → Int → Byte
  | [], address => font.getD address.toNat 0
  | use :: earlier, address =>
    if use.Allowed then (use.stores? address).getD (lastStored earlier address)
    else lastStored earlier address

namespace Memory

/-- The memory after a history of uses, newest use first. -/
def after : List MemoryUse → Memory
  | [] => .fresh
  | use :: earlier => (use.perform (after earlier)).2

/-- A memory holds the bytes of a map at all its addresses. -/
def Holds (memory : Memory) (contents : Int → Byte) : Prop :=
  ∀ address : Int, 0 ≤ address → address < 0x1000 → memory.byteAt address.toNat = contents address

variable {memory : Memory} {contents : Int → Byte}

/-- The font page is the same in all memories. -/
theorem byteAt_font (memory : Memory) {address : Nat} (low : address < programStart) :
    memory.byteAt address = font.getD address 0 := by
  rw [byteAt, if_pos low]

/-- Above the font page the map begins with zeros. -/
theorem lastStored_nil {address : Int} (high : 0x200 ≤ address) : lastStored [] address = 0 := by
  -- The list of glyphs ends far below.
  have glyphs : font.length = 80 := by decide
  rw [lastStored, List.getD_eq_getElem?_getD, List.getElem?_eq_none (by omega), Option.getD_none]

/-- Memory at power-on holds the font and zeros. -/
theorem fresh_holds : fresh.Holds (lastStored []) := by
  -- A fresh memory has the font on its first page and zeros behind it.
  intro address low high
  by_cases page : address.toNat < programStart
  · exact byteAt_font fresh page
  · rw [programStart] at page
    rw [lastStored_nil (by omega), byteAt, programStart, if_neg page]
    simp only [fresh, Vector.getElem?_replicate]
    split <;> rfl

/-- A stored byte is found at its address, and nothing else changes. -/
theorem Holds.put (holds : memory.Holds contents) {place address : Int} (byte : Byte)
    (low : 0x200 ≤ place) (high : place < 0x1000) (bottom : 0 ≤ address) (top : address < 0x1000) :
    (memory.put place.toNat byte).byteAt address.toNat =
      if address = place then byte else contents address := by
  rw [byteAt_put memory byte (by rw [programStart]; omega) (by rw [memorySize]; omega)]
  by_cases here : address = place
  · rw [if_pos (congrArg Int.toNat here), if_pos here]
  · -- Addresses are not negative, so they are told apart as natural numbers too.
    rw [if_neg (by omega), if_neg here]
    exact holds address bottom top

/-- A stored run is found at its addresses, and nothing else changes. -/
theorem Holds.putAll (holds : memory.Holds contents) {place address : Int} {bytes : List Byte}
    (low : 0x200 ≤ place) (high : place + bytes.length ≤ 0x1000) (bottom : 0 ≤ address)
    (top : address < 0x1000) :
    (memory.putAll place.toNat bytes).byteAt address.toNat =
      if place ≤ address then (bytes[(address - place).toNat]?).getD (contents address)
      else contents address := by
  rw [byteAt_putAll memory (by rw [programStart]; omega) (by rw [memorySize]; omega)]
  by_cases inside : place ≤ address ∧ address < place + bytes.length
  · have distance : address.toNat - place.toNat = (address - place).toNat := by omega
    have listed : (address - place).toNat < bytes.length := by omega
    rw [if_pos (by omega), if_pos inside.1, distance, List.getD_eq_getElem?_getD,
      List.getElem?_eq_getElem listed, Option.getD_some, Option.getD_some]
  · rw [if_neg (by omega), holds address bottom top]
    by_cases before : place ≤ address
    · -- Behind the run the list of its bytes is at its end.
      have behind : bytes.length ≤ (address - place).toNat := by omega
      rw [if_pos before, List.getElem?_eq_none behind, Option.getD_none]
    · rw [if_neg before]

/-- The bytes of a readable run are those of the map. -/
theorem Holds.slice (holds : memory.Holds contents) (place length : Int)
    (permitted : ∀ address, place ≤ address ∧ address < place + length →
      Access.read.Permits address) :
    memory.slice place.toNat (place + length).toNat =
      (List.range length.toNat).map fun (offset : Nat) => contents (place + offset) := by
  -- A run that is not empty starts at a readable address.
  have bottom : 0 < length → 0 ≤ place := fun occupied => (permitted place (by omega)).1
  have count : (place + length).toNat - place.toNat = length.toNat := by omega
  rw [Memory.slice, count]
  apply List.map_congr_left
  intro offset listed
  have near : offset < length.toNat := List.mem_range.mp listed
  obtain ⟨low, high⟩ := permitted (place + offset) (by omega)
  -- An offset from the start of the run is an address of the map.
  have same : place.toNat + offset = (place + offset).toNat := by omega
  rw [same]
  exact holds (place + offset) low high

end Memory

/-! ### Checked runs -/

namespace Access

/-- The check that is made before an access. -/
def check : Access → Int → Except Fault Unit
  | .read => Memory.checkRead
  | .write => Memory.checkWrite

variable {access : Access} {address place size : Int}

/-- A permitted address passes the check. -/
theorem check_permitted (permits : access.Permits address) : access.check address = .ok () := by
  cases access with
  | read => exact if_pos permits
  | write => exact if_pos permits

/-- The check refuses any other address, and names it. -/
theorem check_outside (outside : ¬access.Permits address) :
    access.check address = .error (.outOfBounds access address) := by
  cases access with
  | read => exact if_neg outside
  | write => exact if_neg outside

/-- A permitted run that is not empty passes the checks of both its ends. -/
theorem checks_permitted (occupied : 0 < size)
    (permitted : ∀ address, place ≤ address ∧ address < place + size → access.Permits address) :
    access.check place = .ok () ∧ access.check (place + size - 1) = .ok () :=
  ⟨check_permitted (permitted place (by omega)),
    check_permitted (permitted (place + size - 1) (by omega))⟩

/-- A run that is not permitted is refused by the check of one of its ends, the first one first. -/
theorem checks_outside
    (refused : ¬∀ address, place ≤ address ∧ address < place + size → access.Permits address) :
    0 < size ∧ ∃ address, (place ≤ address ∧ address < place + size) ∧ ¬access.Permits address ∧
      (access.check place = .error (.outOfBounds access address) ∨
        access.check place = .ok () ∧
          access.check (place + size - 1) = .error (.outOfBounds access address)) := by
  -- A run of addresses is permitted if both ends are, so one of the ends is not.
  rw [MemoryUse.permits_run, not_or] at refused
  obtain ⟨occupied, ends⟩ := refused
  refine ⟨by omega, ?_⟩
  by_cases first : access.Permits place
  · have last : ¬access.Permits (place + size - 1) := fun last => ends ⟨first, last⟩
    exact ⟨place + size - 1, by omega, last, .inr ⟨check_permitted first, check_outside last⟩⟩
  · exact ⟨place, by omega, first, .inl (check_outside first)⟩

/-- A run of one address that is not permitted is that address. -/
theorem outside_one
    (refused : ¬∀ address, place ≤ address ∧ address < place + 1 → access.Permits address) :
    ¬access.Permits place := by
  -- A run of one address reaches no other.
  intro inside
  apply refused
  intro address reached
  have same : address = place := by omega
  rwa [same]

end Access

namespace Memory

variable (memory : Memory) (place : Int)

/-- A permitted run is read as a slice, which is empty if the run is. -/
theorem readBlock_permitted (length : Int)
    (permitted : ∀ address, place ≤ address ∧ address < place + length →
      Access.read.Permits address) :
    memory.readBlock place length = .ok (memory.slice place.toNat (place + length).toNat) := by
  rw [readBlock]
  by_cases empty : length ≤ 0
  · -- Nothing is checked, and the slice ends where it starts.
    have none : (place + length).toNat - place.toNat = 0 := by omega
    rw [if_pos empty, slice, none]
    rfl
  · obtain ⟨first, last⟩ := Access.checks_permitted (by omega) permitted
    simp only [Access.check] at first last
    rw [if_neg empty, first, ok_bind, last, ok_bind, pure_eq_ok]

/-- A run that is not permitted is not read. -/
theorem readBlock_outside (length : Int)
    (refused : ¬∀ address, place ≤ address ∧ address < place + length →
      Access.read.Permits address) :
    ∃ address, (place ≤ address ∧ address < place + length) ∧ ¬Access.read.Permits address ∧
      memory.readBlock place length = .error (.outOfBounds .read address) := by
  -- Both ends are checked before anything is read.
  obtain ⟨occupied, address, reached, outside, failed⟩ := Access.checks_outside refused
  refine ⟨address, reached, outside, ?_⟩
  simp only [Access.check] at failed
  rw [readBlock, if_neg (by omega)]
  rcases failed with first | ⟨first, last⟩
  · rw [first, error_bind]
  · rw [first, ok_bind, last, error_bind]

/-- Values are stored at a permitted run, and nothing is stored if there are none. -/
theorem writeBlock_permitted (values : List Int)
    (permitted : ∀ address, place ≤ address ∧ address < place + values.length →
      Access.write.Permits address) :
    memory.writeBlock place values =
      (.ok (), memory.putAll place.toNat (values.map .ofInt)) := by
  -- Both ends are checked, and without values there is nothing to check.
  cases values with
  | nil => rfl
  | cons value rest =>
    have occupied : 0 < ((value :: rest).length : Int) := by
      rw [List.length_cons]
      omega
    obtain ⟨first, last⟩ := Access.checks_permitted occupied permitted
    simp only [Access.check] at first last
    simp only [writeBlock, List.isEmpty_cons, first, last, Bool.false_eq_true, if_false]

/-- Values are not stored at a run that is not permitted, and the memory is left as it was. -/
theorem writeBlock_outside (values : List Int)
    (refused : ¬∀ address, place ≤ address ∧ address < place + values.length →
      Access.write.Permits address) :
    ∃ address, (place ≤ address ∧ address < place + values.length) ∧
      ¬Access.write.Permits address ∧
      memory.writeBlock place values = (.error (.outOfBounds .write address), memory) := by
  -- A block without values is never refused, and any other has ends to check.
  obtain ⟨occupied, address, reached, outside, failed⟩ := Access.checks_outside refused
  refine ⟨address, reached, outside, ?_⟩
  simp only [Access.check] at failed
  cases values with
  | nil => cases occupied
  | cons value rest =>
    simp only [writeBlock, List.isEmpty_cons, Bool.false_eq_true, if_false]
    rcases failed with first | ⟨first, last⟩
    · simp only [first]
    · simp only [first, last]

/-- A block that is stored leaves all bytes alone that it does not reach. -/
theorem byteAt_of_writeBlock {changed : Memory} {values : List Int}
    (done : memory.writeBlock place values = (.ok (), changed)) {address : Nat}
    (outside : ¬(place ≤ address ∧ address < place + values.length)) :
    changed.byteAt address = memory.byteAt address := by
  by_cases permitted : ∀ target, place ≤ target ∧ target < place + values.length →
      Access.write.Permits target
  · rw [writeBlock_permitted memory place values permitted] at done
    obtain rfl := (Prod.mk.inj done).2
    rcases (MemoryUse.permits_run .write place values.length).mp permitted with empty | ends
    · -- Without values nothing is stored.
      obtain rfl : values = [] := List.length_eq_zero_iff.mp (by omega)
      rfl
    · obtain ⟨⟨low, -⟩, -, high⟩ := ends
      have inside : place.toNat + (values.map Byte.ofInt).length ≤ memorySize := by
        rw [memorySize, List.length_map]
        omega
      rw [byteAt_putAll memory (by rw [programStart]; omega) inside, if_neg]
      rw [List.length_map]
      omega
  · -- A block that does not fit is refused.
    obtain ⟨_, -, -, failed⟩ := writeBlock_outside memory place values permitted
    rw [failed] at done
    cases done

/-- A word is read from two permitted addresses, high byte first. -/
theorem readWord_permitted
    (permitted : ∀ address, place ≤ address ∧ address < place + 2 → Access.read.Permits address) :
    memory.readWord place =
      .ok (.ofBytes (memory.byteAt place.toNat) (memory.byteAt (place.toNat + 1))) := by
  -- A word is read as a run of two bytes, each of which is an end.
  have behind : place + 2 - 1 = place + 1 := by omega
  obtain ⟨first, last⟩ := Access.checks_permitted (by decide) permitted
  simp only [Access.check, behind] at first last
  rw [readWord, first, ok_bind, last, ok_bind, pure_eq_ok]

/-- A word is not read unless both of its addresses are permitted. -/
theorem readWord_outside
    (refused : ¬∀ address, place ≤ address ∧ address < place + 2 → Access.read.Permits address) :
    ∃ address, (place ≤ address ∧ address < place + 2) ∧ ¬Access.read.Permits address ∧
      memory.readWord place = .error (.outOfBounds .read address) := by
  -- The first address that is refused is the one that the error names.
  have behind : place + 2 - 1 = place + 1 := by omega
  obtain ⟨-, address, reached, outside, failed⟩ := Access.checks_outside refused
  refine ⟨address, reached, outside, ?_⟩
  simp only [Access.check, behind] at failed
  rcases failed with first | ⟨first, last⟩
  · rw [readWord, first, error_bind]
  · rw [readWord, first, ok_bind, last, error_bind]

end Memory

/-! ### Uses of a memory that holds a map -/

namespace MemoryUse

variable {memory : Memory} {contents : Int → Byte}

/-- A map after an allowed use. -/
def update (use : MemoryUse) (contents : Int → Byte) (address : Int) : Byte :=
  (use.stores? address).getD (contents address)

/-- A memory in which values were stored at writable addresses holds the map with them. -/
theorem holds_writeBlock (holds : memory.Holds contents) {place : Int} {values : List Int}
    (permitted : ∀ address, place ≤ address ∧ address < place + values.length →
      Access.write.Permits address) :
    (memory.putAll place.toNat (values.map .ofInt)).Holds
      ((writeBlock place values).update contents) := by
  intro address bottom top
  rcases (permits_run .write place values.length).mp permitted with empty | ⟨first, last⟩
  · -- Without values nothing is stored, in memory and in the map.
    obtain rfl : values = [] := List.eq_nil_of_length_eq_zero (by omega)
    refine (holds address bottom top).trans ?_
    simp [update, stores?]
  · have fits : place + (values.map Byte.ofInt).length ≤ 0x1000 := by
      obtain ⟨-, below⟩ := last
      rw [List.length_map]
      omega
    rw [holds.putAll first.1 fits bottom top, List.getElem?_map]
    simp only [update, stores?]
    split <;> rfl

/-- A memory that an image was loaded into holds the map with the image, and zeros around it. -/
theorem holds_load (holds : memory.Holds contents) {image : List Byte} {base : Int}
    (low : 0x200 ≤ base) (fits : base + image.length ≤ 0x1000) :
    (Memory.fresh.putAll base.toNat image).Holds ((load image base).update contents) := by
  intro address bottom top
  rw [Memory.fresh_holds.putAll low fits bottom top]
  simp only [update, stores?]
  by_cases page : address < 0x200
  · -- Below the writable bytes both memories show the same font page.
    have low : address.toNat < programStart := by rw [programStart]; omega
    have outside : ¬(0x200 ≤ address ∧ address < 0x1000) := by omega
    have before : ¬base ≤ address := by omega
    rw [if_pos outside, if_neg before, Option.getD_none, ← holds address bottom top,
      Memory.byteAt_font memory low]
    rfl
  · have inside : ¬¬(0x200 ≤ address ∧ address < 0x1000) := by omega
    rw [if_neg inside, Memory.lastStored_nil (by omega), List.getD_eq_getElem?_getD]
    split <;> rfl

/-- An allowed use is answered as on the map that the memory holds, and is noted in it. -/
theorem perform_of_allowed {use : MemoryUse} (allowed : use.Allowed)
    (holds : memory.Holds contents) :
    ∃ left, use.perform memory = (.ok (use.answer contents), left) ∧
      left.Holds (use.update contents) := by
  cases use with
  | write place value =>
    have reached : place ≤ place ∧ place < place + 1 := by omega
    obtain ⟨low, high⟩ := allowed place reached
    have checked : Memory.checkWrite place = .ok () := Memory.checkWrite_eq_ok.mpr ⟨low, high⟩
    refine ⟨memory.put place.toNat (.ofInt value), ?_, ?_⟩
    · simp only [perform, Memory.write, checked, stored, Except.map, answer]
    · intro address bottom top
      rw [holds.put _ low high bottom top]
      simp only [update, stores?]
      split <;> rfl
  | writeBlock place values =>
    have written := Memory.writeBlock_permitted memory place values allowed
    exact ⟨_, by rw [perform, written]; rfl, holds_writeBlock holds allowed⟩
  | load image base =>
    obtain ⟨⟨low, high⟩, fits⟩ := allowed
    have loaded := Memory.load_eq memory low high fits
    exact ⟨_, by rw [perform, loaded]; rfl, holds_load holds low fits⟩
  | read place =>
    have reached : place ≤ place ∧ place < place + 1 := by omega
    obtain ⟨low, high⟩ := allowed place reached
    have checked : Memory.checkRead place = .ok () := Memory.checkRead_eq_ok.mpr ⟨low, high⟩
    refine ⟨memory, ?_, holds⟩
    simp only [perform, Memory.read, checked, ok_bind, pure_eq_ok, Except.map, answer,
      holds place low high]
  | readWord place =>
    have answered := Memory.readWord_permitted memory place allowed
    have reached : place ≤ place ∧ place < place + 2 := by omega
    have next : place ≤ place + 1 ∧ place + 1 < place + 2 := by omega
    obtain ⟨low, high⟩ := allowed place reached
    obtain ⟨below, above⟩ := allowed (place + 1) next
    -- The address of the low byte is the one behind, also as a natural number.
    have behind : place.toNat + 1 = (place + 1).toNat := by omega
    rw [behind, holds place low high, holds (place + 1) below above] at answered
    exact ⟨memory, by rw [perform, answered]; rfl, holds⟩
  | readBlock place length =>
    have answered := Memory.readBlock_permitted memory place length allowed
    rw [holds.slice place length allowed] at answered
    exact ⟨memory, by rw [perform, answered]; rfl, holds⟩

/-- A use that is not allowed is refused by a fault that tells why, and leaves the memory alone. -/
theorem perform_of_not_allowed {use : MemoryUse} (refused : ¬use.Allowed) (memory : Memory) :
    ∃ fault, use.perform memory = (.error fault, memory) ∧ use.Explains fault := by
  cases use with
  | write place value =>
    have outside : ¬Access.write.Permits place := Access.outside_one refused
    have checked : Memory.checkWrite place = _ := Access.check_outside outside
    have reached : place ≤ place ∧ place < place + 1 := by omega
    refine ⟨.outOfBounds .write place, ?_, place, reached, outside, rfl⟩
    simp only [perform, Memory.write, checked, stored, Except.map]
  | writeBlock place values =>
    obtain ⟨address, reached, outside, failed⟩ :=
      Memory.writeBlock_outside memory place values refused
    exact ⟨_, by rw [perform, failed]; rfl, address, reached, outside, rfl⟩
  | load image base =>
    by_cases inside : 0x200 ≤ base ∧ base < 0x1000
    · -- The base is writable, so the image must be too long.
      have long : ¬base + image.length ≤ 0x1000 := fun fits => refused ⟨inside, fits⟩
      have checked : Memory.checkWrite base = .ok () := Memory.checkWrite_eq_ok.mpr inside
      have limit : image.length > ((memorySize : Int) - base).toNat := by
        rw [memorySize]
        omega
      refine ⟨.programTooLarge image.length (0x1000 - base).toNat, ?_, .inr ⟨inside, rfl⟩⟩
      simp only [perform, Memory.load, checked, if_pos limit]
      rfl
    · -- The base is checked first, and is named in the refusal.
      have outside : ¬Access.write.Permits base := inside
      have checked : Memory.checkWrite base = _ := Access.check_outside outside
      refine ⟨_, ?_, .inl ⟨inside, rfl⟩⟩
      simp only [perform, Memory.load, checked, stored, Except.map]
  | read place =>
    have outside : ¬Access.read.Permits place := Access.outside_one refused
    have checked : Memory.checkRead place = _ := Access.check_outside outside
    have reached : place ≤ place ∧ place < place + 1 := by omega
    refine ⟨.outOfBounds .read place, ?_, place, reached, outside, rfl⟩
    simp only [perform, Memory.read, checked, error_bind, Except.map]
  | readWord place =>
    obtain ⟨address, reached, outside, failed⟩ :=
      Memory.readWord_outside memory place refused
    exact ⟨_, by rw [perform, failed]; rfl, address, reached, outside, rfl⟩
  | readBlock place length =>
    obtain ⟨address, reached, outside, failed⟩ :=
      Memory.readBlock_outside memory place length refused
    exact ⟨_, by rw [perform, failed]; rfl, address, reached, outside, rfl⟩

end MemoryUse

/-- The memory after a history holds what the history has last stored. -/
theorem Memory.after_holds (history : List MemoryUse) :
    (Memory.after history).Holds (lastStored history) := by
  -- The newest use is either noted in the map or refused, and then both sides stay.
  induction history with
  | nil => exact fresh_holds
  | cons use earlier ih =>
    intro address low high
    by_cases allowed : use.Allowed
    · obtain ⟨left, performed, holds⟩ := use.perform_of_allowed allowed ih
      simp only [after, performed, lastStored, if_pos allowed]
      exact holds address low high
    · obtain ⟨fault, performed, -⟩ := use.perform_of_not_allowed allowed (after earlier)
      simp only [after, performed, lastStored, if_neg allowed]
      exact ih address low high

/--
Memory is a faithful store with a read-only font.

After any history of uses a memory holds, at each address, the byte that was last stored there by a
use that was allowed.
The next use is allowed if its access is legal at all its addresses, and for an image if the base is
writable and the image ends within memory.
Then it is answered as on the map, and otherwise it is refused with an explanation and changes
nothing.
The font page reads as at power-on, and the size stays the same.
-/
theorem memory_is_faithful_store (history : List MemoryUse) (use : MemoryUse) :
    (Memory.after history).Holds (lastStored history) ∧
      (use.Allowed → use.perform (.after history) =
        (.ok (use.answer (lastStored history)), .after (use :: history))) ∧
      (¬use.Allowed → (∃ fault, use.perform (.after history) = (.error fault, .after history) ∧
        use.Explains fault) ∧ Memory.after (use :: history) = .after history) ∧
      (∀ address, address < programStart →
        (Memory.after history).byteAt address = Memory.fresh.byteAt address) ∧
      (Memory.after history).toList.length = memorySize := by
  refine ⟨Memory.after_holds history, ?_, ?_, ?_, ?_⟩
  · intro allowed
    obtain ⟨left, performed, -⟩ := use.perform_of_allowed allowed (Memory.after_holds history)
    simp only [Memory.after, performed]
  · intro refused
    obtain ⟨fault, performed, explained⟩ := use.perform_of_not_allowed refused (.after history)
    refine ⟨⟨fault, performed, explained⟩, ?_⟩
    simp only [Memory.after, performed]
  · -- No memory has bytes of its own in the font page.
    intro address low
    rw [Memory.byteAt_font _ low, Memory.byteAt_font _ low]
  · simp [Memory.toList]

end Chip8
