import Chip8.Fault

/-!
The 4096-byte memory: a read-only font page below 0x200 and writable bytes above it.

What stores bytes answers with a refusal or with none, and in both cases with the memory.
-/

namespace Chip8

/-- Number of addressable bytes. -/
def memorySize : Nat := 4096

/-- First writable address, where programs start by convention. -/
def programStart : Nat := 512

/-- The sixteen hexadecimal glyphs, five rows each. -/
def font : List Byte :=
  [ 0xF0, 0x90, 0x90, 0x90, 0xF0,
    0x20, 0x60, 0x20, 0x20, 0x70,
    0xF0, 0x10, 0xF0, 0x80, 0xF0,
    0xF0, 0x10, 0xF0, 0x10, 0xF0,
    0x90, 0x90, 0xF0, 0x10, 0x10,
    0xF0, 0x80, 0xF0, 0x10, 0xF0,
    0xF0, 0x80, 0xF0, 0x90, 0xF0,
    0xF0, 0x10, 0x20, 0x40, 0x40,
    0xF0, 0x90, 0xF0, 0x90, 0xF0,
    0xF0, 0x90, 0xF0, 0x10, 0xF0,
    0xF0, 0x90, 0xF0, 0x90, 0x90,
    0xE0, 0x90, 0xE0, 0x90, 0xE0,
    0xF0, 0x80, 0x80, 0x80, 0xF0,
    0xE0, 0x90, 0x90, 0x90, 0xE0,
    0xF0, 0x80, 0xF0, 0x80, 0xF0,
    0xF0, 0x80, 0xF0, 0x80, 0x80 ]

/-- Address of the glyph of a digit, of which only the low four bits count. -/
def glyphAddress (digit : Int) : Int :=
  digit % 16 * 5

/--
A memory is its writable bytes, since the font page never changes.

The type says so because the checks of all three ways to change a memory do: single bytes and blocks
are stored at addresses from 0x200 to 0xFFF only, and a load clears and fills no others.
-/
structure Memory where
  /-- The bytes from address 0x200 to the end. -/
  ram : Vector Byte 3584
  deriving DecidableEq

namespace Memory

/-- Memory at power-on: the font, and zeros in all writable bytes. -/
def fresh : Memory :=
  ⟨Vector.replicate 3584 0⟩

/-- The byte an address holds, which is zero past the end. -/
def byteAt (memory : Memory) (address : Nat) : Byte :=
  if address < programStart then font.getD address 0
  else memory.ram[address - programStart]?.getD 0

/-- All bytes in address order. -/
def toList (memory : Memory) : List Byte :=
  (List.range memorySize).map memory.byteAt

/-- The bytes from one address up to, but without, another. -/
def slice (memory : Memory) (first last : Nat) : List Byte :=
  (List.range (last - first)).map fun offset => memory.byteAt (first + offset)

/-! ### Legal windows -/

/-- Every address of the memory may be read. -/
def checkRead (address : Int) : Except Fault Unit :=
  if 0 ≤ address ∧ address < memorySize then .ok () else .error (.outOfBounds .read address)

/-- Only addresses above the font page may be written. -/
def checkWrite (address : Int) : Except Fault Unit :=
  if programStart ≤ address ∧ address < memorySize then .ok ()
  else .error (.outOfBounds .write address)

/-! ### Reading -/

/-- One byte. -/
def read (memory : Memory) (address : Int) : Except Fault Byte := do
  checkRead address
  return memory.byteAt address.toNat

/-- Two bytes, high byte first. -/
def readWord (memory : Memory) (address : Int) : Except Fault Word := do
  checkRead address
  checkRead (address + 1)
  return .ofBytes (memory.byteAt address.toNat) (memory.byteAt (address.toNat + 1))

/-- A run of bytes, of which both ends are checked before any is returned. -/
def readBlock (memory : Memory) (address length : Int) : Except Fault (List Byte) := do
  if length ≤ 0 then return []
  checkRead address
  checkRead (address + length - 1)
  return memory.slice address.toNat (address + length).toNat

/-! ### Writing -/

/-- Stores a byte above the font page, and ignores every other address. -/
def put (memory : Memory) (address : Nat) (byte : Byte) : Memory :=
  if address < programStart then memory
  else ⟨memory.ram.setIfInBounds (address - programStart) byte⟩

/-- Stores bytes at consecutive addresses. -/
def putAll (memory : Memory) (address : Nat) : List Byte → Memory
  | [] => memory
  | byte :: rest => (memory.put address byte).putAll (address + 1) rest

/-- A stored byte is found at its address, and every other address keeps its byte. -/
theorem byteAt_put (memory : Memory) {address : Nat} (byte : Byte)
    (writable : programStart ≤ address) (inside : address < memorySize) (other : Nat) :
    (memory.put address byte).byteAt other =
      if other = address then byte else memory.byteAt other := by
  -- Above the font page an address and its place in the writable bytes determine each other.
  simp only [programStart, memorySize] at writable inside
  unfold put byteAt
  simp only [programStart]
  grind

/-- Bytes stored in a run are found there, and every other address keeps its byte. -/
theorem byteAt_putAll (memory : Memory) {address : Nat} {bytes : List Byte}
    (writable : programStart ≤ address) (inside : address + bytes.length ≤ memorySize)
    (other : Nat) :
    (memory.putAll address bytes).byteAt other =
      if address ≤ other ∧ other < address + bytes.length then
        bytes.getD (other - address) 0
      else memory.byteAt other := by
  -- The first byte is stored before the rest, which begins one address later.
  induction bytes generalizing memory address with
  | nil =>
    have outside : ¬(address ≤ other ∧ other < address) := by omega
    simp [putAll, outside]
  | cons byte rest ih =>
    simp only [List.length_cons] at inside ⊢
    have step := @ih (memory.put address byte) (address + 1) (by omega) (by omega)
    rw [putAll, step, byteAt_put memory byte writable (by omega)]
    by_cases here : other = address
    · -- The first address lies before the rest and within the whole run.
      rw [if_neg (by omega), if_pos here, if_pos (by omega), here, Nat.sub_self,
        List.getD_cons_zero]
    · by_cases later : address + 1 ≤ other ∧ other < address + 1 + rest.length
      · obtain ⟨distance, rfl⟩ : ∃ distance, other = address + 1 + distance :=
          ⟨other - (address + 1), by omega⟩
        -- A place in the rest is one place further on in the whole run.
        rw [if_pos later, if_pos (by omega), Nat.add_sub_cancel_left, Nat.add_assoc,
          Nat.add_sub_cancel_left, Nat.add_comm 1 distance, List.getD_cons_succ]
      · rw [if_neg later, if_neg here, if_neg (by omega)]

/-- One byte, of which only the low eight bits are kept. -/
def write (memory : Memory) (address value : Int) : Except Fault Unit × Memory :=
  match checkWrite address with
  | .error fault => (.error fault, memory)
  | .ok () => (.ok (), memory.put address.toNat (.ofInt value))

/-- A run of bytes, of which both ends are checked before any is stored. -/
def writeBlock (memory : Memory) (address : Int) (values : List Int) :
    Except Fault Unit × Memory :=
  if values.isEmpty then (.ok (), memory)
  else
    match checkWrite address with
    | .error fault => (.error fault, memory)
    | .ok () =>
      match checkWrite (address + values.length - 1) with
      | .error fault => (.error fault, memory)
      | .ok () => (.ok (), memory.putAll address.toNat (values.map .ofInt))

/-- Replaces all writable bytes by an image at a base address and zeros elsewhere. -/
def load (memory : Memory) (image : List Byte) (base : Int) : Except Fault Unit × Memory :=
  match checkWrite base with
  | .error fault => (.error fault, memory)
  | .ok () =>
    let limit := (memorySize - base).toNat
    if image.length > limit then (.error (.programTooLarge image.length limit), memory)
    else
      -- A successful load leaves nothing of the image before it.
      let cleared : Memory := { memory with ram := Vector.replicate 3584 0 }
      (.ok (), cleared.putAll base.toNat image)

/-! ### Dump -/

/-- Place of a row's end in memory, where a negative address counts back from the end. -/
def position (address : Int) : Nat :=
  if address < 0 then (address + memorySize).toNat else min address.toNat memorySize

/-- One row of a dump: the address, two blanks, and the bytes up to the row's end. -/
def hexdumpRow (memory : Memory) (address finish : Int) : String :=
  let bytes := memory.slice (position address) (position (min (address + 16) finish))
  hexText 3 address ++ "  " ++ " ".intercalate (bytes.map fun byte => hexText 2 byte.val)

/-- Rows of sixteen bytes from a start address, ending with the range or with the memory. -/
def hexdump (memory : Memory) (start length : Int) : String :=
  let finish := min (start + length) memorySize
  let rows := ((finish - start + 15) / 16).toNat
  "\n".intercalate ((List.range rows).map fun (row : Nat) =>
    memory.hexdumpRow (start + 16 * row) finish)

end Memory

end Chip8
