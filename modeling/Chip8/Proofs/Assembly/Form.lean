import Chip8.Proofs.Assembly.Operand

/-!
The forms that instructions are written in.

A mnemonic has one form for each kind of operands it takes, and each form belongs to one operation.
-/

namespace Chip8

/-- A place for an operand in the written form of an instruction. -/
inductive Slot where
  /-- A name that is part of the form. -/
  | name (text : List Char)
  /-- A register that goes into the second digit of the word. -/
  | x
  /-- A register that goes into the third digit of the word. -/
  | y
  /-- A number or label of twelve bits. -/
  | address
  /-- A number or label of eight bits. -/
  | byte
  /-- A number or label of four bits. -/
  | nibble
  deriving DecidableEq

namespace Slot

/-- Whether an operand can stand in a place; a value is not looked at before it is needed. -/
def takes (operand : List Char) : Slot → Bool
  | name text => operand == text
  | x => (Operand.register? operand).isSome
  | y => (Operand.register? operand).isSome
  | address => true
  | byte => true
  | nibble => true

/-- The bits of a place for a value. -/
def width? : Slot → Option Nat
  | name _ => none
  | x => none
  | y => none
  | address => some 12
  | byte => some 8
  | nibble => some 4

/-- A place for a value has an operand with a value that is not too wide for it. -/
def Holds (labels : Labels) (operand : List Char) (slot : Slot) : Prop :=
  ∀ bits, slot.width? = some bits →
    ∃ number, Operand.integer labels operand = .ok number ∧
      0 ≤ number ∧ number < (1 <<< bits : Nat)

/-- The field of a word that belongs to a place is what the operand in the place stands for. -/
def Reads (labels : Labels) (word : Word) (operand : List Char) : Slot → Prop
  | name text => operand = text
  | x => operand = registerText word.x
  | y => operand = registerText word.y
  | address => Operand.integer labels operand = .ok word.address.val
  | byte => Operand.integer labels operand = .ok word.byte.val
  | nibble => Operand.integer labels operand = .ok word.nibble.val

/-- What the field of a place adds to a word. -/
def part (word : Word) : Slot → Nat
  | name _ => 0
  | x => 256 * word.x.val
  | y => 16 * word.y.val
  | address => word.address.val
  | byte => word.byte.val
  | nibble => word.nibble.val

/-- What some places have together of an amount. -/
def total (amount : Slot → Nat) : List Slot → Nat
  | [] => 0
  | slot :: rest => amount slot + total amount rest

end Slot

/-- One way to write the instructions of an operation. -/
structure Form where
  /-- The places of the operands. -/
  slots : List Slot
  operation : Operation
  /-- The word with nothing in its places. -/
  code : Nat
  deriving DecidableEq

namespace Form

/-- Whether the operands are as many as the places and can stand in them. -/
def fits (operands : List (List Char)) (form : Form) : Bool :=
  form.slots.length == operands.length &&
    (form.slots.zip operands).all fun pair => pair.1.takes pair.2

/-- A word is written with operands: its fields are theirs, and its other bits are the code's. -/
structure Spells (labels : Labels) (operands : List (List Char)) (form : Form) (word : Word) :
    Prop where
  /-- There is an operand for each place. -/
  count : form.slots.length = operands.length
  /-- Every field is what is written in its place. -/
  reads : ∀ pair ∈ form.slots.zip operands, pair.1.Reads labels word pair.2
  /-- There is nothing in the word but its code and its fields. -/
  digits : word.val = form.code + Slot.total (Slot.part word) form.slots

/--
The operation that a word of a form is decoded to.

The words of two calls of the host are the words of the instructions without operands.
-/
def operationOf (form : Form) (word : Word) : Operation :=
  if form.operation = .sys ∧ word = 0x00E0 then .clear
  else if form.operation = .sys ∧ word = 0x00EE then .ret
  else form.operation

/-- The first of some forms that the operands fit writes a word. -/
def FirstSpells (labels : Labels) (operands : List (List Char)) (forms : List Form) (word : Word) :
    Prop :=
  ∃ form, forms.find? (fits operands) = some form ∧ form.Spells labels operands word

end Form

namespace Mnemonic

/-- The forms of a mnemonic, of which the first that fits counts; data has none. -/
def forms : Mnemonic → List Form
  | .dw => []
  | .cls => [⟨[], .clear, 0x00E0⟩]
  | .ret => [⟨[], .ret, 0x00EE⟩]
  | .sys => [⟨[.address], .sys, 0x0000⟩]
  | .jp => [⟨[.address], .jump, 0x1000⟩, ⟨[.name "V0".toList, .address], .jumpOffset, 0xB000⟩]
  | .call => [⟨[.address], .call, 0x2000⟩]
  | .se => [⟨[.x, .y], .skipIfEqual, 0x5000⟩, ⟨[.x, .byte], .skipIfByte, 0x3000⟩]
  | .sne => [⟨[.x, .y], .skipUnlessEqual, 0x9000⟩, ⟨[.x, .byte], .skipUnlessByte, 0x4000⟩]
  | .ld =>
    -- Names count before registers, and registers before values, which may be labels of any name.
    [ ⟨[.name "I".toList, .address], .loadIndex, 0xA000⟩,
      ⟨[.name "DT".toList, .x], .setDelay, 0xF015⟩,
      ⟨[.name "ST".toList, .x], .setSound, 0xF018⟩,
      ⟨[.name "F".toList, .x], .loadGlyph, 0xF029⟩,
      ⟨[.name "B".toList, .x], .storeDecimal, 0xF033⟩,
      ⟨[.name "[I]".toList, .x], .storeRegisters, 0xF055⟩,
      ⟨[.x, .name "DT".toList], .readDelay, 0xF007⟩,
      ⟨[.x, .name "K".toList], .waitKey, 0xF00A⟩,
      ⟨[.x, .name "[I]".toList], .loadRegisters, 0xF065⟩,
      ⟨[.x, .y], .copy, 0x8000⟩,
      ⟨[.x, .byte], .loadByte, 0x6000⟩ ]
  | .add =>
    [ ⟨[.name "I".toList, .x], .addIndex, 0xF01E⟩, ⟨[.x, .y], .add, 0x8004⟩,
      ⟨[.x, .byte], .addByte, 0x7000⟩ ]
  | .or => [⟨[.x, .y], .bitOr, 0x8001⟩]
  | .and => [⟨[.x, .y], .bitAnd, 0x8002⟩]
  | .xor => [⟨[.x, .y], .bitXor, 0x8003⟩]
  | .sub => [⟨[.x, .y], .sub, 0x8005⟩]
  | .subn => [⟨[.x, .y], .subFrom, 0x8007⟩]
  | .shr => [⟨[.x], .shiftRight, 0x8006⟩, ⟨[.x, .y], .shiftRight, 0x8006⟩]
  | .shl => [⟨[.x], .shiftLeft, 0x800E⟩, ⟨[.x, .y], .shiftLeft, 0x800E⟩]
  | .rnd => [⟨[.x, .byte], .random, 0xC000⟩]
  | .drw => [⟨[.x, .y, .nibble], .draw, 0xD000⟩]
  | .skp => [⟨[.x], .skipIfKey, 0xE09E⟩]
  | .sknp => [⟨[.x], .skipUnlessKey, 0xE0A1⟩]

/-- The form in which the operands of a mnemonic are written. -/
def form? (mnemonic : Mnemonic) (operands : List (List Char)) : Option Form :=
  mnemonic.forms.find? (Form.fits operands)

end Mnemonic

/-! ### Fields in their places -/

variable {labels : Labels} {operands : List (List Char)} {form : Form} {word : Word}

namespace Slot

/-- An operand that a field is read from can stand in its place. -/
theorem Reads.takes {slot : Slot} {operand : List Char}
    (reads : slot.Reads labels word operand) : slot.takes operand = true := by
  -- A name is the text, a register has a name, and anything may stand for a value.
  cases slot with
  | name text => exact beq_iff_eq.mpr reads
  | x => exact Option.isSome_of_eq_some (register?_eq_some.mpr reads)
  | y => exact Option.isSome_of_eq_some (register?_eq_some.mpr reads)
  | address => rfl
  | byte => rfl
  | nibble => rfl

/-- An operand that a field is read from has a value that the place can hold. -/
theorem Reads.holds {slot : Slot} {operand : List Char}
    (reads : slot.Reads labels word operand) : slot.Holds labels operand := by
  -- The value is a field, and no field is wider than its place.
  intro bits width
  cases slot with
  | name text => cases width
  | x => cases width
  | y => cases width
  | address =>
    cases width
    exact ⟨word.address.val, reads, by omega, by have := word.address.isLt; omega⟩
  | byte =>
    cases width
    exact ⟨word.byte.val, reads, by omega, by have := word.byte.isLt; omega⟩
  | nibble =>
    cases width
    exact ⟨word.nibble.val, reads, by omega, by have := word.nibble.isLt; omega⟩

/-- The most that the field of a place adds to a word. -/
def room : Slot → Nat
  | name _ => 0
  | x => 0x0F00
  | y => 0x00F0
  | address => 0x0FFF
  | byte => 0x00FF
  | nibble => 0x000F

/-- The unit in which the field of a place adds to a word. -/
def unit : Slot → Nat
  | name _ => 0
  | x => 0x0100
  | y => 0x0010
  | address => 0x0001
  | byte => 0x0001
  | nibble => 0x0001

/-- A field adds no more than there is room for. -/
theorem part_le_room (slot : Slot) (word : Word) : slot.part word ≤ slot.room := by
  -- A digit is below sixteen, and so on.
  cases slot <;> simp only [part, room] <;> omega

/-- A field adds whole units. -/
theorem unit_dvd_part (slot : Slot) (word : Word) : slot.unit ∣ slot.part word := by
  -- A register is one digit, at its weight.
  cases slot with
  | name text => exact Nat.dvd_refl 0
  | x => exact Nat.dvd_mul_right 256 word.x.val
  | y => exact Nat.dvd_mul_right 16 word.y.val
  | address => exact Nat.one_dvd word.address.val
  | byte => exact Nat.one_dvd word.byte.val
  | nibble => exact Nat.one_dvd word.nibble.val

/-- Fields add no more together than there is room for. -/
theorem total_part_le_room (slots : List Slot) (word : Word) :
    total (part word) slots ≤ total room slots := by
  -- One field is added after the other.
  induction slots with
  | nil => exact Nat.le_refl 0
  | cons slot rest ih => exact Nat.add_le_add (slot.part_le_room word) ih

/-- Fields that add multiples of a number add a multiple of it together. -/
theorem dvd_total_part {slots : List Slot} {divisor : Nat} (word : Word)
    (whole : ∀ slot ∈ slots, divisor ∣ slot.unit) : divisor ∣ total (part word) slots := by
  -- One field is added after the other.
  induction slots with
  | nil => exact Nat.dvd_zero divisor
  | cons slot rest ih =>
    obtain ⟨here, behind⟩ := List.forall_mem_cons.mp whole
    exact Nat.dvd_add (Nat.dvd_trans here (slot.unit_dvd_part word)) (ih behind)

end Slot

/-! ### Operations of words -/

namespace Word

/-- A word of class zero clears, returns, or calls the host. -/
theorem operation?_of_zero (zero : word.opclass.val = 0) :
    word.operation? =
      some (if word = 0x00E0 then .clear else if word = 0x00EE then .ret else .sys) := by
  -- Two words of the class are told apart from all others.
  simp only [operation?, decode, zero]
  split
  case h_1 same =>
    obtain rfl : word = 0x00E0 := Fin.ext same
    rfl
  case h_2 same =>
    obtain rfl : word = 0x00EE := Fin.ext same
    rfl
  case h_3 clear ret =>
    have first : word ≠ 0x00E0 := fun same => clear (congrArg Fin.val same)
    have second : word ≠ 0x00EE := fun same => ret (congrArg Fin.val same)
    rw [if_neg first, if_neg second]
    rfl

/-- Words have one operation if they agree in the digits by which their class is decoded. -/
theorem operation?_congr {other : Word} (first : word.opclass = other.opclass)
    (coded : word.opclass.val ≠ 0)
    (arithmetic : word.opclass.val = 8 → word.nibble = other.nibble)
    (device : 14 ≤ word.opclass.val → word.byte = other.byte) :
    word.operation? = other.operation? := by
  -- Decoding branches on the class first, and in three classes on the digits behind it.
  simp only [operation?, decode, ← first]
  split
  case h_1 zero => exact absurd zero coded
  case h_9 eight =>
    simp only [decodeArithmetic, ← arithmetic eight]
    split <;> rfl
  case h_15 fourteen =>
    simp only [← device (by omega)]
    split <;> rfl
  case h_16 fifteen =>
    simp only [decodeDevice, ← device (by omega)]
    split <;> rfl
  -- The operation of every other class is that of the class alone.
  all_goals rfl

end Word

/-! ### Operations of forms -/

namespace Mnemonic

/--
The code of a form has its operation, and leaves room for its fields.

No field reaches the class or, in the classes that are decoded further, the digits that are.
-/
theorem forms_table (mnemonic : Mnemonic) : ∀ form ∈ mnemonic.forms,
    form.code % 4096 + Slot.total Slot.room form.slots < 4096 ∧
      (form.code / 4096 = 8 → ∀ slot ∈ form.slots, 16 ∣ slot.unit) ∧
        (14 ≤ form.code / 4096 → ∀ slot ∈ form.slots, 256 ∣ slot.unit) ∧
          form.code < 65536 ∧ (Word.ofInt form.code).operation? = some form.operation := by
  -- There are thirty-seven forms to look at.
  cases mnemonic <;> decide

/-- Three forms have a code of class zero, and only one of them has a place. -/
theorem forms_of_zero (mnemonic : Mnemonic) : ∀ form ∈ mnemonic.forms, form.code / 4096 = 0 →
    form = ⟨[], .clear, 0x00E0⟩ ∨ form = ⟨[], .ret, 0x00EE⟩ ∨ form = ⟨[.address], .sys, 0⟩ := by
  -- There are thirty-seven forms to look at.
  cases mnemonic <;> decide

end Mnemonic

namespace Form.Spells

variable {mnemonic : Mnemonic}

/-- A written word is of the class of its code. -/
theorem opclass (spells : form.Spells labels operands word) (listed : form ∈ mnemonic.forms) :
    word.opclass.val = form.code / 4096 := by
  -- The fields stay below the class, where the code has left room for them.
  obtain ⟨room, -⟩ := mnemonic.forms_table form listed
  have fields := Slot.total_part_le_room form.slots word
  have digits := spells.digits
  simp only [Word.opclass]
  omega

/-- A written word that is decoded further has the operation of its code. -/
theorem operation_of_coded (spells : form.Spells labels operands word)
    (listed : form ∈ mnemonic.forms) (coded : form.code / 4096 ≠ 0) :
    word.operation? = some form.operation := by
  obtain ⟨-, arithmetic, device, bounded, operation⟩ := mnemonic.forms_table form listed
  have first := spells.opclass listed
  have digits := spells.digits
  -- The operation of the code is in the table, so the word must only agree with the code.
  rw [← operation]
  -- The code is a word, with the same class and the same digits behind it.
  have value : (Word.ofInt form.code).val = form.code := by
    simp only [Word.ofInt]
    omega
  refine Word.operation?_congr (Fin.ext ?_) (by omega) ?_ ?_
  · simp only [Word.opclass, value]
    exact first
  · -- In the class of arithmetic, no field reaches the last digit.
    intro eight
    obtain ⟨fields, whole⟩ := Slot.dvd_total_part word (arithmetic (by omega))
    apply Fin.ext
    simp only [Word.nibble, value]
    omega
  · -- In the classes of keys and devices, no field reaches the last byte.
    intro further
    obtain ⟨fields, whole⟩ := Slot.dvd_total_part word (device (by omega))
    apply Fin.ext
    simp only [Word.byte, value]
    omega

/-- A written word has the operation of its form. -/
theorem operation (spells : form.Spells labels operands word) (listed : form ∈ mnemonic.forms) :
    word.operation? = some (form.operationOf word) := by
  have first := spells.opclass listed
  by_cases coded : form.code / 4096 = 0
  · -- A word of class zero without places is its code, and one with an address is any.
    rw [Word.operation?_of_zero (first.trans coded)]
    have digits := spells.digits
    rcases mnemonic.forms_of_zero form listed coded with rfl | rfl | rfl
    · obtain rfl : word = 0x00E0 := Fin.ext digits
      rfl
    · obtain rfl : word = 0x00EE := Fin.ext digits
      rfl
    · simp [operationOf]
  · -- The words without operands are of class zero.
    have clear : word ≠ 0x00E0 := by
      rintro rfl
      exact coded first.symm
    have ret : word ≠ 0x00EE := by
      rintro rfl
      exact coded first.symm
    rw [spells.operation_of_coded listed coded, operationOf]
    simp [clear, ret]

end Form.Spells

/-! ### Words of few places -/

namespace Form

variable {first second third : List Char} {operation : Operation} {code : Nat}

/-- A form without places writes its code. -/
theorem spells_none : Spells labels [] ⟨[], operation, code⟩ word ↔ word.val = code := by
  constructor
  · intro spells
    exact spells.digits
  · intro digits
    exact ⟨rfl, List.forall_mem_nil _, digits⟩

/-- A form with one place writes what its operand says. -/
theorem spells_one {slot : Slot} :
    Spells labels [first] ⟨[slot], operation, code⟩ word ↔
      slot.Reads labels word first ∧ word.val = code + slot.part word := by
  -- There is one pair of a place and an operand.
  constructor
  · rintro ⟨-, reads, digits⟩
    exact ⟨(List.forall_mem_cons.mp reads).1, digits⟩
  · rintro ⟨read, digits⟩
    exact ⟨rfl, by simpa using read, digits⟩

/-- A form with two places writes what its operands say. -/
theorem spells_two {one two : Slot} :
    Spells labels [first, second] ⟨[one, two], operation, code⟩ word ↔
      one.Reads labels word first ∧ two.Reads labels word second ∧
        word.val = code + (one.part word + two.part word) := by
  -- There are two pairs of a place and an operand.
  constructor
  · rintro ⟨-, reads, digits⟩
    obtain ⟨left, right⟩ := List.forall_mem_cons.mp reads
    exact ⟨left, (List.forall_mem_cons.mp right).1, digits⟩
  · rintro ⟨left, right, digits⟩
    exact ⟨rfl, by simpa using ⟨left, right⟩, digits⟩

/-- A form with three places writes what its operands say. -/
theorem spells_three {one two three : Slot} :
    Spells labels [first, second, third] ⟨[one, two, three], operation, code⟩ word ↔
      one.Reads labels word first ∧ two.Reads labels word second ∧ three.Reads labels word third ∧
        word.val = code + (one.part word + (two.part word + three.part word)) := by
  -- There are three pairs of a place and an operand.
  constructor
  · rintro ⟨-, reads, digits⟩
    simp only [List.zip_cons_cons, List.zip_nil_left, List.forall_mem_cons] at reads
    exact ⟨reads.1, reads.2.1, reads.2.2.1, digits⟩
  · rintro ⟨left, middle, right, digits⟩
    exact ⟨rfl, by simpa using ⟨left, middle, right⟩, digits⟩

/-- A name in front is read where it is written, and adds nothing to the word. -/
theorem spells_name {text : List Char} {slot : Slot} :
    Spells labels [first, second] ⟨[.name text, slot], operation, code⟩ word ↔
      first = text ∧ Spells labels [second] ⟨[slot], operation, code⟩ word := by
  simp [spells_one, spells_two, Slot.Reads, Slot.part]

/-- A name behind is read where it is written, and adds nothing to the word. -/
theorem spells_name_behind {text : List Char} {slot : Slot} :
    Spells labels [first, second] ⟨[slot, .name text], operation, code⟩ word ↔
      second = text ∧ Spells labels [first] ⟨[slot], operation, code⟩ word := by
  simp [spells_one, spells_two, Slot.Reads, Slot.part, and_left_comm]

/-! ### The first form that fits -/

/-- The operands of a written word fit its form. -/
theorem Spells.fits (spells : form.Spells labels operands word) :
    form.fits operands = true := by
  -- An operand that a field was read from can stand in its place.
  simp only [Form.fits, Bool.and_eq_true, beq_iff_eq, List.all_eq_true]
  exact ⟨spells.count, fun pair member => (spells.reads pair member).takes⟩

/-- Operands that do not fit a form are not written in it. -/
theorem not_spells (unfit : form.fits operands = false) : ¬form.Spells labels operands word := by
  intro spells
  rw [spells.fits] at unfit
  cases unfit

/-- The first of some forms writes a word, or else it does not fit and one behind it does. -/
theorem firstSpells_cons {rest : List Form} :
    FirstSpells labels operands (form :: rest) word ↔
      form.Spells labels operands word ∨
        form.fits operands = false ∧ FirstSpells labels operands rest word := by
  -- A form that does not fit writes nothing, so it may be asked first whether it writes.
  unfold FirstSpells
  cases fit : form.fits operands with
  | true => simp [fit]
  | false => simp [fit, not_spells fit]

/-- Behind a form that does not fit, the other forms count. -/
theorem firstSpells_skip {rest : List Form} (unfit : form.fits operands = false) :
    FirstSpells labels operands (form :: rest) word ↔ FirstSpells labels operands rest word := by
  simp [firstSpells_cons, unfit, not_spells unfit]

/-- A single form is the first. -/
theorem firstSpells_single :
    FirstSpells labels operands [form] word ↔ form.Spells labels operands word := by
  have none : ¬FirstSpells labels operands [] word := by
    rintro ⟨found, first, -⟩
    cases first
  simp [firstSpells_cons, none]

/-- Forms whose places are more or fewer than the operands write nothing. -/
theorem not_firstSpells {forms : List Form}
    (counts : ∀ form ∈ forms, form.slots.length ≠ operands.length) :
    ¬FirstSpells labels operands forms word := by
  rintro ⟨form, found, spells⟩
  exact counts form (List.mem_of_find?_eq_some found) spells.count

/-- The first place of a form that writes a word takes the first operand. -/
theorem FirstSpells.takes_first {forms : List Form}
    (spells : FirstSpells labels (first :: operands) forms word) :
    ∃ form ∈ forms, ∃ slot, form.slots.head? = some slot ∧ slot.takes first = true := by
  -- The form that was found has a place for the first operand.
  obtain ⟨⟨slots, operation, code⟩, found, written⟩ := spells
  refine ⟨_, List.mem_of_find?_eq_some found, ?_⟩
  cases slots with
  | nil => cases written.count
  | cons slot rest => exact ⟨slot, rfl, (written.reads _ (List.mem_cons_self ..)).takes⟩

/-- A name in front chooses its form, if it can stand in front of no form behind. -/
theorem firstSpells_name {text : List Char} {slot : Slot} {rest : List Form}
    (apart : ∀ form ∈ rest, ∀ slot, form.slots.head? = some slot → slot.takes text = false) :
    FirstSpells labels [first, second] (⟨[.name text, slot], operation, code⟩ :: rest) word ↔
      if first = text then Spells labels [second] ⟨[slot], operation, code⟩ word
      else FirstSpells labels [first, second] rest word := by
  -- A second operand that is the name belongs to this form, as none of the rest takes it.
  rw [firstSpells_cons, spells_name]
  by_cases named : first = text
  · subst named
    have other : ¬FirstSpells labels [first, second] rest word := by
      intro spells
      obtain ⟨form, member, place, front, takes⟩ := spells.takes_first
      rw [apart form member place front] at takes
      cases takes
    simp [other]
  · simp [named, fits, Slot.takes]

/-- A name behind a register chooses its form, if all forms behind begin with a register. -/
theorem firstSpells_name_behind {text : List Char} {rest : List Form}
    (registers : ∀ form ∈ rest, form.slots.head? = some .x) :
    FirstSpells labels [first, second] (⟨[.x, .name text], operation, code⟩ :: rest) word ↔
      if second = text then Spells labels [first] ⟨[.x], operation, code⟩ word
      else FirstSpells labels [first, second] rest word := by
  rw [firstSpells_cons, spells_name_behind]
  by_cases named : second = text
  · subst named
    -- What is no register fits none of the forms.
    have other : fits [first, second] ⟨[.x, .name second], operation, code⟩ = false →
        ¬FirstSpells labels [first, second] rest word := by
      intro unfit spells
      obtain ⟨form, member, place, front, takes⟩ := spells.takes_first
      cases (registers form member).symm.trans front
      simp [fits, Slot.takes] at unfit takes
      simp [unfit] at takes
    constructor
    · rintro (spells | ⟨unfit, spells⟩)
      · simpa using spells
      · exact absurd spells (other unfit)
    · intro spells
      exact .inl ⟨rfl, by simpa using spells⟩
  · simp [named, fits, Slot.takes]

end Form

end Chip8
