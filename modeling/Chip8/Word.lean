/-! Bytes, addresses and sixteen-bit instruction words, with the fields a word is read by. -/

namespace Chip8

/-- An eight-bit value. -/
abbrev Byte := Fin 256

/-- A four-bit value: a digit, a key, a register number or a sprite height. -/
abbrev Nibble := Fin 16

/-- A twelve-bit address operand. -/
abbrev Address := Fin 4096

/-- A sixteen-bit instruction word. -/
abbrev Word := Fin 65536

/-- There are bytes, as their literals require. -/
instance Byte.count_ne_zero : @NeZero Nat Zero.ofOfNat0 256 :=
  ⟨Nat.succ_ne_zero 255⟩

/-- There are nibbles, as their literals require. -/
instance Nibble.count_ne_zero : @NeZero Nat Zero.ofOfNat0 16 :=
  ⟨Nat.succ_ne_zero 15⟩

/-- There are words, as their literals require. -/
instance Word.count_ne_zero : @NeZero Nat Zero.ofOfNat0 65536 :=
  ⟨Nat.succ_ne_zero 65535⟩

/-- The low eight bits of an integer. -/
def Byte.ofInt (value : Int) : Byte :=
  ⟨(value % 256).toNat, by omega⟩

/-- The low four bits of an integer. -/
def Nibble.ofInt (value : Int) : Nibble :=
  ⟨(value % 16).toNat, by omega⟩

namespace Word

/-- The low sixteen bits of an integer. -/
def ofInt (value : Int) : Word :=
  ⟨(value % 65536).toNat, by omega⟩

/-- A word stored high byte first. -/
def ofBytes (high low : Byte) : Word :=
  ⟨256 * high.val + low.val, by omega⟩

/-- The two bytes a word is stored as, high byte first. -/
def toBytes (word : Word) : List Byte :=
  [⟨word.val / 256, by omega⟩, ⟨word.val % 256, by omega⟩]

/-- The top four bits, which choose the instruction class. -/
def opclass (word : Word) : Nibble :=
  ⟨word.val / 4096, by omega⟩

/-- The low twelve bits. -/
def address (word : Word) : Address :=
  ⟨word.val % 4096, by omega⟩

/-- The low four bits. -/
def nibble (word : Word) : Nibble :=
  ⟨word.val % 16, by omega⟩

/-- The low four bits of the high byte, which name a first register. -/
def x (word : Word) : Nibble :=
  ⟨word.val / 256 % 16, by omega⟩

/-- The high four bits of the low byte, which name a second register. -/
def y (word : Word) : Nibble :=
  ⟨word.val / 16 % 16, by omega⟩

/-- The low eight bits. -/
def byte (word : Word) : Byte :=
  ⟨word.val % 256, by omega⟩

/-- The fields that a word is read by, of which an instruction looks at some. -/
structure Fields where
  /-- The word itself. -/
  code : Word := 0
  opclass : Nibble := 0
  address : Address := ⟨0, by decide⟩
  nibble : Nibble := 0
  x : Nibble := 0
  y : Nibble := 0
  byte : Byte := 0
  deriving DecidableEq

/-- The fields of a word. -/
def fields (word : Word) : Fields where
  code := word
  opclass := word.opclass
  address := word.address
  nibble := word.nibble
  x := word.x
  y := word.y
  byte := word.byte

/-- A class with a twelve-bit operand. -/
def ofAddress (opclass : Nibble) (address : Address) : Word :=
  ⟨4096 * opclass.val + address.val, by omega⟩

/-- A class with a register and an eight-bit operand. -/
def ofByte (opclass x : Nibble) (byte : Byte) : Word :=
  ⟨4096 * opclass.val + 256 * x.val + byte.val, by omega⟩

/-- A class with two registers and a four-bit operand. -/
def ofNibbles (opclass x y nibble : Nibble) : Word :=
  ⟨4096 * opclass.val + 256 * x.val + 16 * y.val + nibble.val, by omega⟩

/-- Splitting a word into its bytes loses nothing. -/
theorem ofBytes_toBytes (word : Word) :
    ofBytes ⟨word.val / 256, by omega⟩ ⟨word.val % 256, by omega⟩ = word := by
  apply Fin.ext
  simp only [ofBytes]
  omega

/-! ### Fields of built words -/

/-- A word built from an address has that address. -/
@[simp]
theorem address_ofAddress (first : Nibble) (value : Address) :
    (ofAddress first value).address = value := by
  apply Fin.ext
  simp only [address, ofAddress]
  omega

/-- A word built from a byte has the class it was built with. -/
@[simp]
theorem opclass_ofByte (first second : Nibble) (value : Byte) :
    (ofByte first second value).opclass = first := by
  apply Fin.ext
  simp only [opclass, ofByte]
  omega

/-- A word built from a byte has the register it was built with. -/
@[simp]
theorem x_ofByte (first second : Nibble) (value : Byte) :
    (ofByte first second value).x = second := by
  apply Fin.ext
  simp only [x, ofByte]
  omega

/-- A word built from a byte has that byte. -/
@[simp]
theorem byte_ofByte (first second : Nibble) (value : Byte) :
    (ofByte first second value).byte = value := by
  apply Fin.ext
  simp only [byte, ofByte]
  omega

/-- A word built from four digits has the first as its class. -/
@[simp]
theorem opclass_ofNibbles (first second third fourth : Nibble) :
    (ofNibbles first second third fourth).opclass = first := by
  apply Fin.ext
  simp only [opclass, ofNibbles]
  omega

/-- A word built from four digits has the second as its first register. -/
@[simp]
theorem x_ofNibbles (first second third fourth : Nibble) :
    (ofNibbles first second third fourth).x = second := by
  apply Fin.ext
  simp only [x, ofNibbles]
  omega

/-- A word built from four digits has the third as its second register. -/
@[simp]
theorem y_ofNibbles (first second third fourth : Nibble) :
    (ofNibbles first second third fourth).y = third := by
  apply Fin.ext
  simp only [y, ofNibbles]
  omega

/-- A word built from four digits has the fourth as its low digit. -/
@[simp]
theorem nibble_ofNibbles (first second third fourth : Nibble) :
    (ofNibbles first second third fourth).nibble = fourth := by
  apply Fin.ext
  simp only [nibble, ofNibbles]
  omega

end Word

end Chip8
