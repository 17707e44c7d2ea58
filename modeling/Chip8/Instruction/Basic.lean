import Chip8.Word

/-! The instructions of the machine, the operations they belong to, and their sixteen-bit codes. -/

namespace Chip8

/-- An instruction with its operands; bits that no instruction looks at are not part of it. -/
inductive Instruction where
  /-- Clears the display. -/
  | clear
  /-- Returns from a subroutine. -/
  | ret
  /-- Calls a routine of the host processor, which has no effect. -/
  | sys (address : Address)
  /-- Jumps to an address. -/
  | jump (address : Address)
  /-- Calls the subroutine at an address. -/
  | call (address : Address)
  /-- Skips the next instruction if a register equals a byte. -/
  | skipIfByte (x : Nibble) (byte : Byte)
  /-- Skips the next instruction unless a register equals a byte. -/
  | skipUnlessByte (x : Nibble) (byte : Byte)
  /-- Skips the next instruction if two registers are equal. -/
  | skipIfEqual (x y : Nibble)
  /-- Loads a byte into a register. -/
  | loadByte (x : Nibble) (byte : Byte)
  /-- Adds a byte to a register and leaves the flag alone. -/
  | addByte (x : Nibble) (byte : Byte)
  /-- Copies the second register into the first. -/
  | copy (x y : Nibble)
  | bitOr (x y : Nibble)
  | bitAnd (x y : Nibble)
  | bitXor (x y : Nibble)
  /-- Adds the second register to the first; the flag is the carry. -/
  | add (x y : Nibble)
  /-- Subtracts the second register from the first; the flag says that the first was greater. -/
  | sub (x y : Nibble)
  /-- Halves a register; the flag is the bit that is lost. -/
  | shiftRight (x : Nibble)
  /-- Subtracts the first register from the second; the flag says that the second was greater. -/
  | subFrom (x y : Nibble)
  /-- Doubles a register; the flag is the bit that is lost. -/
  | shiftLeft (x : Nibble)
  /-- Skips the next instruction unless two registers are equal. -/
  | skipUnlessEqual (x y : Nibble)
  /-- Loads the address register. -/
  | loadIndex (address : Address)
  /-- Jumps to an address plus the first register. -/
  | jumpOffset (address : Address)
  /-- Loads a random byte, masked by another, into a register. -/
  | random (x : Nibble) (byte : Byte)
  /-- Draws a sprite of some rows at a pair of coordinates; the flag is the collision. -/
  | draw (x y rows : Nibble)
  /-- Skips the next instruction if a key is held. -/
  | skipIfKey (x : Nibble)
  /-- Skips the next instruction unless a key is held. -/
  | skipUnlessKey (x : Nibble)
  /-- Reads the delay timer. -/
  | readDelay (x : Nibble)
  /-- Waits for a key press. -/
  | waitKey (x : Nibble)
  /-- Sets the delay timer. -/
  | setDelay (x : Nibble)
  /-- Sets the sound timer. -/
  | setSound (x : Nibble)
  /-- Adds a register to the address register. -/
  | addIndex (x : Nibble)
  /-- Points the address register to the glyph of a digit. -/
  | loadGlyph (x : Nibble)
  /-- Stores the three decimal digits of a register. -/
  | storeDecimal (x : Nibble)
  /-- Stores the registers up to a given one. -/
  | storeRegisters (x : Nibble)
  /-- Loads the registers up to a given one. -/
  | loadRegisters (x : Nibble)
  deriving DecidableEq

/-- The thirty-five operations, which are the instructions without their operands. -/
inductive Operation where
  | clear
  | ret
  | sys
  | jump
  | call
  | skipIfByte
  | skipUnlessByte
  | skipIfEqual
  | loadByte
  | addByte
  | copy
  | bitOr
  | bitAnd
  | bitXor
  | add
  | sub
  | shiftRight
  | subFrom
  | shiftLeft
  | skipUnlessEqual
  | loadIndex
  | jumpOffset
  | random
  | draw
  | skipIfKey
  | skipUnlessKey
  | readDelay
  | waitKey
  | setDelay
  | setSound
  | addIndex
  | loadGlyph
  | storeDecimal
  | storeRegisters
  | loadRegisters
  deriving DecidableEq

namespace Operation

/-- All operations, by instruction class. -/
def all : List Operation :=
  [ .clear, .ret, .sys, .jump, .call, .skipIfByte, .skipUnlessByte, .skipIfEqual, .loadByte,
    .addByte, .copy, .bitOr, .bitAnd, .bitXor, .add, .sub, .shiftRight, .subFrom, .shiftLeft,
    .skipUnlessEqual, .loadIndex, .jumpOffset, .random, .draw, .skipIfKey, .skipUnlessKey,
    .readDelay, .waitKey, .setDelay, .setSound, .addIndex, .loadGlyph, .storeDecimal,
    .storeRegisters, .loadRegisters ]

/-- Every operation is listed. -/
theorem mem_all (operation : Operation) : operation ∈ all := by
  cases operation <;> decide

/-- The key by which reports name an operation. -/
def key : Operation → String
  | .clear => "OP_CLS"
  | .ret => "OP_RET"
  | .sys => "OP_SYS"
  | .jump => "OP_JP"
  | .call => "OP_CALL"
  | .skipIfByte => "OP_SE_BYTE"
  | .skipUnlessByte => "OP_SNE_BYTE"
  | .skipIfEqual => "OP_SE_REG"
  | .loadByte => "OP_LD_BYTE"
  | .addByte => "OP_ADD_BYTE"
  | .copy => "OP_LD_REG"
  | .bitOr => "OP_OR"
  | .bitAnd => "OP_AND"
  | .bitXor => "OP_XOR"
  | .add => "OP_ADD_REG"
  | .sub => "OP_SUB"
  | .shiftRight => "OP_SHR"
  | .subFrom => "OP_SUBN"
  | .shiftLeft => "OP_SHL"
  | .skipUnlessEqual => "OP_SNE_REG"
  | .loadIndex => "OP_LD_I"
  | .jumpOffset => "OP_JP_V0"
  | .random => "OP_RND"
  | .draw => "OP_DRW"
  | .skipIfKey => "OP_SKP"
  | .skipUnlessKey => "OP_SKNP"
  | .readDelay => "OP_LD_VX_DT"
  | .waitKey => "OP_LD_VX_K"
  | .setDelay => "OP_LD_DT_VX"
  | .setSound => "OP_LD_ST_VX"
  | .addIndex => "OP_ADD_I"
  | .loadGlyph => "OP_LD_F"
  | .storeDecimal => "OP_LD_B"
  | .storeRegisters => "OP_LD_MEM_VX"
  | .loadRegisters => "OP_LD_VX_MEM"

/-- The key of a word's operation, with a key of its own for a word without one. -/
def keyOf : Option Operation → String
  | some operation => operation.key
  | none => "OP_INVALID"

/-- The operation that a key names. -/
def ofKey? (key : String) : Option Operation :=
  all.find? fun operation => operation.key == key

end Operation

namespace Instruction

/-- The operation an instruction belongs to. -/
def operation : Instruction → Operation
  | .clear => .clear
  | .ret => .ret
  | .sys _ => .sys
  | .jump _ => .jump
  | .call _ => .call
  | .skipIfByte .. => .skipIfByte
  | .skipUnlessByte .. => .skipUnlessByte
  | .skipIfEqual .. => .skipIfEqual
  | .loadByte .. => .loadByte
  | .addByte .. => .addByte
  | .copy .. => .copy
  | .bitOr .. => .bitOr
  | .bitAnd .. => .bitAnd
  | .bitXor .. => .bitXor
  | .add .. => .add
  | .sub .. => .sub
  | .shiftRight _ => .shiftRight
  | .subFrom .. => .subFrom
  | .shiftLeft _ => .shiftLeft
  | .skipUnlessEqual .. => .skipUnlessEqual
  | .loadIndex _ => .loadIndex
  | .jumpOffset _ => .jumpOffset
  | .random .. => .random
  | .draw .. => .draw
  | .skipIfKey _ => .skipIfKey
  | .skipUnlessKey _ => .skipUnlessKey
  | .readDelay _ => .readDelay
  | .waitKey _ => .waitKey
  | .setDelay _ => .setDelay
  | .setSound _ => .setSound
  | .addIndex _ => .addIndex
  | .loadGlyph _ => .loadGlyph
  | .storeDecimal _ => .storeDecimal
  | .storeRegisters _ => .storeRegisters
  | .loadRegisters _ => .loadRegisters

/-- The operands of an instruction in the fields it reads them from, and zeros in all others. -/
def fields : Instruction → Word.Fields
  | .clear | .ret => {}
  | .sys address | .jump address | .call address | .loadIndex address | .jumpOffset address =>
    { address }
  | .skipIfByte x byte | .skipUnlessByte x byte | .loadByte x byte | .addByte x byte
  | .random x byte => { x, byte }
  | .skipIfEqual x y | .skipUnlessEqual x y | .copy x y | .bitOr x y | .bitAnd x y | .bitXor x y
  | .add x y | .sub x y | .subFrom x y => { x, y }
  | .shiftRight x | .shiftLeft x | .skipIfKey x | .skipUnlessKey x | .readDelay x | .waitKey x
  | .setDelay x | .setSound x | .addIndex x | .loadGlyph x | .storeDecimal x | .storeRegisters x
  | .loadRegisters x => { x }
  | .draw x y rows => { x, y, nibble := rows }

/-- The word of an instruction, in which the bits that nothing looks at are zero. -/
def encode : Instruction → Word
  | .clear => 0x00E0
  | .ret => 0x00EE
  | .sys address => .ofAddress 0x0 address
  | .jump address => .ofAddress 0x1 address
  | .call address => .ofAddress 0x2 address
  | .skipIfByte x byte => .ofByte 0x3 x byte
  | .skipUnlessByte x byte => .ofByte 0x4 x byte
  | .skipIfEqual x y => .ofNibbles 0x5 x y 0x0
  | .loadByte x byte => .ofByte 0x6 x byte
  | .addByte x byte => .ofByte 0x7 x byte
  | .copy x y => .ofNibbles 0x8 x y 0x0
  | .bitOr x y => .ofNibbles 0x8 x y 0x1
  | .bitAnd x y => .ofNibbles 0x8 x y 0x2
  | .bitXor x y => .ofNibbles 0x8 x y 0x3
  | .add x y => .ofNibbles 0x8 x y 0x4
  | .sub x y => .ofNibbles 0x8 x y 0x5
  | .shiftRight x => .ofNibbles 0x8 x 0x0 0x6
  | .subFrom x y => .ofNibbles 0x8 x y 0x7
  | .shiftLeft x => .ofNibbles 0x8 x 0x0 0xE
  | .skipUnlessEqual x y => .ofNibbles 0x9 x y 0x0
  | .loadIndex address => .ofAddress 0xA address
  | .jumpOffset address => .ofAddress 0xB address
  | .random x byte => .ofByte 0xC x byte
  | .draw x y rows => .ofNibbles 0xD x y rows
  | .skipIfKey x => .ofByte 0xE x 0x9E
  | .skipUnlessKey x => .ofByte 0xE x 0xA1
  | .readDelay x => .ofByte 0xF x 0x07
  | .waitKey x => .ofByte 0xF x 0x0A
  | .setDelay x => .ofByte 0xF x 0x15
  | .setSound x => .ofByte 0xF x 0x18
  | .addIndex x => .ofByte 0xF x 0x1E
  | .loadGlyph x => .ofByte 0xF x 0x29
  | .storeDecimal x => .ofByte 0xF x 0x33
  | .storeRegisters x => .ofByte 0xF x 0x55
  | .loadRegisters x => .ofByte 0xF x 0x65

end Instruction

namespace Word

/-- The arithmetic instructions of class eight, chosen by the low four bits. -/
def decodeArithmetic (word : Word) : Option Instruction :=
  match word.nibble.val with
  | 0x0 => some (.copy word.x word.y)
  | 0x1 => some (.bitOr word.x word.y)
  | 0x2 => some (.bitAnd word.x word.y)
  | 0x3 => some (.bitXor word.x word.y)
  | 0x4 => some (.add word.x word.y)
  | 0x5 => some (.sub word.x word.y)
  | 0x6 => some (.shiftRight word.x)
  | 0x7 => some (.subFrom word.x word.y)
  | 0xE => some (.shiftLeft word.x)
  | _ => none

/-- The timer, key and memory instructions of class fifteen, chosen by the low eight bits. -/
def decodeDevice (word : Word) : Option Instruction :=
  match word.byte.val with
  | 0x07 => some (.readDelay word.x)
  | 0x0A => some (.waitKey word.x)
  | 0x15 => some (.setDelay word.x)
  | 0x18 => some (.setSound word.x)
  | 0x1E => some (.addIndex word.x)
  | 0x29 => some (.loadGlyph word.x)
  | 0x33 => some (.storeDecimal word.x)
  | 0x55 => some (.storeRegisters word.x)
  | 0x65 => some (.loadRegisters word.x)
  | _ => none

/-- The instruction of a word, if it has one. -/
def decode (word : Word) : Option Instruction :=
  match word.opclass.val with
  | 0x0 =>
    match word.val with
    | 0x00E0 => some .clear
    | 0x00EE => some .ret
    | _ => some (.sys word.address)
  | 0x1 => some (.jump word.address)
  | 0x2 => some (.call word.address)
  | 0x3 => some (.skipIfByte word.x word.byte)
  | 0x4 => some (.skipUnlessByte word.x word.byte)
  | 0x5 => some (.skipIfEqual word.x word.y)
  | 0x6 => some (.loadByte word.x word.byte)
  | 0x7 => some (.addByte word.x word.byte)
  | 0x8 => word.decodeArithmetic
  | 0x9 => some (.skipUnlessEqual word.x word.y)
  | 0xA => some (.loadIndex word.address)
  | 0xB => some (.jumpOffset word.address)
  | 0xC => some (.random word.x word.byte)
  | 0xD => some (.draw word.x word.y word.nibble)
  | 0xE =>
    match word.byte.val with
    | 0x9E => some (.skipIfKey word.x)
    | 0xA1 => some (.skipUnlessKey word.x)
    | _ => none
  | 0xF => word.decodeDevice
  | _ => none

/-- The operation of a word, if it has one. -/
def operation? (word : Word) : Option Operation :=
  word.decode.map Instruction.operation

end Word

end Chip8
