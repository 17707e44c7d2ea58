import Chip8.Proofs.Assembly.Encoder

/-!
Encoding and decoding agree on what a command says.

A command is encoded if its operands fit a form of its mnemonic and have values that their places
can hold, and is refused otherwise.
-/

namespace Chip8

variable {labels : Labels} {operands : List (List Char)} {operand : List Char}

/-- Bytes are those of the word that is put together from them. -/
theorem Word.toBytes_ofBytes (high low : Byte) : (Word.ofBytes high low).toBytes = [high, low] := by
  -- The low byte is below the weight of the high one.
  have top : (256 * high.val + low.val) / 256 = high.val := by omega
  have bottom : (256 * high.val + low.val) % 256 = low.val := by omega
  simp only [toBytes, ofBytes, top, bottom]

/-- A value is answered for an operand that has one in the range of the field. -/
theorem Operand.exists_value {bits : Nat} {slot : Slot} (width : slot.width? = some bits)
    (holds : slot.Holds labels operand) :
    ∃ field : Fin (1 <<< bits), Operand.value labels operand bits = .ok field := by
  -- A number that the field can hold is a field of its own.
  obtain ⟨number, read, positive, bounded⟩ := holds bits width
  have inside : number.toNat < 1 <<< bits := by omega
  refine ⟨⟨number.toNat, inside⟩, value_eq_ok.mpr ?_⟩
  rw [read, Int.toNat_of_nonneg positive]

/-! ### Operands that can be written -/

namespace Form

variable {operation : Operation} {code : Nat}

/-- A form writes a word for all operands that fit it and have values for its places. -/
def Writes (form : Form) : Prop :=
  ∀ (labels : Labels) operands, form.fits operands = true →
    (∀ pair ∈ form.slots.zip operands, pair.1.Holds labels pair.2) →
      ∃ word, form.Spells labels operands word

/-- A single operand fits a form with one place. -/
theorem fits_one {slot : Slot} (fits : fits operands ⟨[slot], operation, code⟩ = true) :
    ∃ first, operands = [first] ∧ slot.takes first = true := by
  -- The operands are as many as the places.
  match operands with
  | [] => cases fits
  | [first] => exact ⟨first, rfl, by simpa [Form.fits] using fits⟩
  | first :: second :: rest => simp [Form.fits] at fits

/-- Two operands fit a form with two places. -/
theorem fits_two {one two : Slot} (fits : fits operands ⟨[one, two], operation, code⟩ = true) :
    ∃ first second, operands = [first, second] ∧
      one.takes first = true ∧ two.takes second = true := by
  -- The operands are as many as the places.
  match operands with
  | [] => cases fits
  | [first] => simp [Form.fits] at fits
  | [first, second] => exact ⟨first, second, rfl, by simpa [Form.fits] using fits⟩
  | first :: second :: third :: rest => simp [Form.fits] at fits

/-- Three operands fit a form with three places. -/
theorem fits_three {one two three : Slot}
    (fits : fits operands ⟨[one, two, three], operation, code⟩ = true) :
    ∃ first second third, operands = [first, second, third] ∧
      one.takes first = true ∧ two.takes second = true ∧ three.takes third = true := by
  -- The operands are as many as the places.
  match operands with
  | [] => cases fits
  | [first] => simp [Form.fits] at fits
  | [first, second] => simp [Form.fits] at fits
  | [first, second, third] =>
    exact ⟨first, second, third, rfl, by simpa [Form.fits] using fits⟩
  | first :: second :: third :: fourth :: rest => simp [Form.fits] at fits

/-- An operand that a place for a register takes is read as the register. -/
theorem register_of_takes (takes : (Operand.register? operand).isSome = true) :
    ∃ x, Operand.register operand = .ok x := by
  obtain ⟨x, named⟩ := Option.isSome_iff_exists.mp takes
  exact ⟨x, Operand.register_eq_ok.mpr (register?_eq_some.mp named)⟩

/-- A form without places writes its code. -/
theorem writes_bare (bounded : code < 65536) : Writes ⟨[], operation, code⟩ := by
  -- Without operands the code is the whole word.
  intro labels operands fits _
  match operands with
  | [] => exact ⟨⟨code, bounded⟩, spells_none.mpr rfl⟩
  | first :: rest => cases fits

/-- A form with an address writes every address. -/
theorem writes_address (top : Nibble) (split : code = 4096 * top.val) :
    Writes ⟨[.address], operation, code⟩ := by
  -- The address takes the low twelve bits, below the digit of the form.
  intro labels operands fits holds
  obtain ⟨first, rfl, -⟩ := fits_one fits
  obtain ⟨here, -⟩ := List.forall_mem_cons.mp holds
  obtain ⟨address, read⟩ := Operand.exists_value (rfl : Slot.address.width? = some 12) here
  refine ⟨.ofAddress top address, (address_eq_ok (fun _ => rfl) split).mp ?_⟩
  rw [Operand.address, read]
  rfl

/-- A form with a register writes every register. -/
theorem writes_register (top : Nibble) (low : Byte) (split : code = 4096 * top.val + low.val) :
    Writes ⟨[.x], operation, code⟩ := by
  -- The register is the second digit, and the low byte belongs to the form.
  intro labels operands fits _
  obtain ⟨first, rfl, takes⟩ := fits_one fits
  obtain ⟨x, named⟩ := register_of_takes takes
  refine ⟨.ofByte top x low, (register_eq_ok (fun _ => rfl) split).mp ?_⟩
  rw [named]
  rfl

/-- A form with two registers writes all pairs of registers. -/
theorem writes_pair (top last : Nibble) (split : code = 4096 * top.val + last.val) :
    Writes ⟨[.x, .y], operation, code⟩ := by
  -- The two registers are the digits in the middle.
  intro labels operands fits _
  obtain ⟨first, second, rfl, one, two⟩ := fits_two fits
  obtain ⟨x, left⟩ := register_of_takes one
  obtain ⟨y, right⟩ := register_of_takes two
  refine ⟨.ofNibbles top x y last, (pair_eq_ok (fun _ _ => rfl) split).mp ?_⟩
  rw [left, right]
  rfl

/-- A form with a register and a byte writes all of them. -/
theorem writes_byte (top : Nibble) (split : code = 4096 * top.val) :
    Writes ⟨[.x, .byte], operation, code⟩ := by
  -- Behind the register there is room for a byte.
  intro labels operands fits holds
  obtain ⟨first, second, rfl, takes, -⟩ := fits_two fits
  obtain ⟨x, named⟩ := register_of_takes takes
  obtain ⟨here, -⟩ := List.forall_mem_cons.mp (List.forall_mem_cons.mp holds).2
  obtain ⟨byte, read⟩ := Operand.exists_value (rfl : Slot.byte.width? = some 8) here
  refine ⟨.ofByte top x byte, (byte_eq_ok (fun _ _ => rfl) split).mp ?_⟩
  rw [named, Operand.byte, read]
  rfl

/-- A form with two registers and a number of rows writes all of them. -/
theorem writes_rows (top : Nibble) (split : code = 4096 * top.val) :
    Writes ⟨[.x, .y, .nibble], operation, code⟩ := by
  -- Behind the two registers there is room for the rows.
  intro labels operands fits holds
  obtain ⟨first, second, third, rfl, one, two, -⟩ := fits_three fits
  obtain ⟨x, left⟩ := register_of_takes one
  obtain ⟨y, right⟩ := register_of_takes two
  have behind := (List.forall_mem_cons.mp (List.forall_mem_cons.mp holds).2).2
  obtain ⟨here, -⟩ := List.forall_mem_cons.mp behind
  obtain ⟨rows, read⟩ := Operand.exists_value (rfl : Slot.nibble.width? = some 4) here
  refine ⟨.ofNibbles top x y rows, (rows_eq_ok (fun _ _ _ => rfl) split).mp ?_⟩
  rw [left, right, read]
  rfl

/-- A name in front of a place lets a form write what it writes without the name. -/
theorem Writes.named {slot : Slot} {text : List Char}
    (writes : Writes ⟨[slot], operation, code⟩) :
    Writes ⟨[.name text, slot], operation, code⟩ := by
  -- A name takes no field of the word.
  intro labels operands fits holds
  obtain ⟨first, second, rfl, same, takes⟩ := fits_two fits
  obtain ⟨word, spells⟩ := writes labels [second] (by simpa [Form.fits] using takes)
    (List.forall_mem_cons.mp holds).2
  exact ⟨word, spells_name.mpr ⟨beq_iff_eq.mp same, spells⟩⟩

/-- A name behind a place lets a form write what it writes without the name. -/
theorem Writes.named_behind {slot : Slot} {text : List Char}
    (writes : Writes ⟨[slot], operation, code⟩) :
    Writes ⟨[slot, .name text], operation, code⟩ := by
  intro labels operands fits holds
  obtain ⟨first, second, rfl, takes, same⟩ := fits_two fits
  obtain ⟨here, -⟩ := List.forall_mem_cons.mp holds
  obtain ⟨word, spells⟩ := writes labels [first] (by simpa [Form.fits] using takes)
    (List.forall_mem_singleton.mpr here)
  exact ⟨word, spells_name_behind.mpr ⟨beq_iff_eq.mp same, spells⟩⟩

/-- Every form writes words. -/
theorem writes_of_mem {mnemonic : Mnemonic} : ∀ form ∈ mnemonic.forms, form.Writes := by
  -- A code is a class, and the digits behind the fields of its form.
  cases mnemonic with
  | dw => exact List.forall_mem_nil _
  | cls | ret => exact List.forall_mem_singleton.mpr (writes_bare (by decide))
  | sys => exact List.forall_mem_singleton.mpr (writes_address 0x0 rfl)
  | jp =>
    simp only [Mnemonic.forms, List.forall_mem_cons]
    exact ⟨writes_address 0x1 rfl, (writes_address 0xB rfl).named, List.forall_mem_nil _⟩
  | call => exact List.forall_mem_singleton.mpr (writes_address 0x2 rfl)
  | se =>
    simp only [Mnemonic.forms, List.forall_mem_cons]
    exact ⟨writes_pair 0x5 0x0 rfl, writes_byte 0x3 rfl, List.forall_mem_nil _⟩
  | sne =>
    simp only [Mnemonic.forms, List.forall_mem_cons]
    exact ⟨writes_pair 0x9 0x0 rfl, writes_byte 0x4 rfl, List.forall_mem_nil _⟩
  | ld =>
    simp only [Mnemonic.forms, List.forall_mem_cons]
    refine ⟨(writes_address 0xA rfl).named, ?_, ?_, ?_, ?_, ?_, ?_, ?_, ?_,
      writes_pair 0x8 0x0 rfl, writes_byte 0x6 rfl, List.forall_mem_nil _⟩
    · exact (writes_register 0xF 0x15 rfl).named
    · exact (writes_register 0xF 0x18 rfl).named
    · exact (writes_register 0xF 0x29 rfl).named
    · exact (writes_register 0xF 0x33 rfl).named
    · exact (writes_register 0xF 0x55 rfl).named
    · exact (writes_register 0xF 0x07 rfl).named_behind
    · exact (writes_register 0xF 0x0A rfl).named_behind
    · exact (writes_register 0xF 0x65 rfl).named_behind
  | add =>
    simp only [Mnemonic.forms, List.forall_mem_cons]
    exact ⟨(writes_register 0xF 0x1E rfl).named, writes_pair 0x8 0x4 rfl, writes_byte 0x7 rfl,
      List.forall_mem_nil _⟩
  | or => exact List.forall_mem_singleton.mpr (writes_pair 0x8 0x1 rfl)
  | and => exact List.forall_mem_singleton.mpr (writes_pair 0x8 0x2 rfl)
  | xor => exact List.forall_mem_singleton.mpr (writes_pair 0x8 0x3 rfl)
  | sub => exact List.forall_mem_singleton.mpr (writes_pair 0x8 0x5 rfl)
  | subn => exact List.forall_mem_singleton.mpr (writes_pair 0x8 0x7 rfl)
  | shr =>
    simp only [Mnemonic.forms, List.forall_mem_cons]
    exact ⟨writes_register 0x8 0x06 rfl, writes_pair 0x8 0x6 rfl, List.forall_mem_nil _⟩
  | shl =>
    simp only [Mnemonic.forms, List.forall_mem_cons]
    exact ⟨writes_register 0x8 0x0E rfl, writes_pair 0x8 0xE rfl, List.forall_mem_nil _⟩
  | rnd => exact List.forall_mem_singleton.mpr (writes_byte 0xC rfl)
  | drw => exact List.forall_mem_singleton.mpr (writes_rows 0xD rfl)
  | skp => exact List.forall_mem_singleton.mpr (writes_register 0xE 0x9E rfl)
  | sknp => exact List.forall_mem_singleton.mpr (writes_register 0xE 0xA1 rfl)

end Form

/-! ### Commands -/

namespace Command

/-- A command is written in the first form of its mnemonic that fits, and the form writes a word. -/
structure Means (labels : Labels) (command : Command) (mnemonic : Mnemonic) (form : Form)
    (word : Word) : Prop where
  named : Mnemonic.ofText? command.mnemonic = some mnemonic
  chosen : mnemonic.form? command.operands = some form
  spells : form.Spells labels command.operands word

/-- Encoding and decoding agree on what a command says. -/
structure Agrees (labels : Labels) (command : Command) : Prop where
  /-- The command is encoded to the two bytes of the word that it means, and otherwise refused. -/
  encoded : ∀ bytes, command.encode labels = .ok bytes ↔
    ∃ mnemonic form high low,
      command.Means labels mnemonic form (.ofBytes high low) ∧ bytes = [high, low]
  /-- Operands that fit a form, with values that their places can hold, are encoded. -/
  accepted : ∀ mnemonic form, Mnemonic.ofText? command.mnemonic = some mnemonic →
    mnemonic.form? command.operands = some form →
      (∀ pair ∈ form.slots.zip command.operands, pair.1.Holds labels pair.2) →
        ∃ bytes, command.encode labels = .ok bytes
  /-- The word is decoded to the operation of the form, but for two calls of the host. -/
  decoded : ∀ mnemonic form word, command.Means labels mnemonic form word →
    word.operation? = some (form.operationOf word)
  /-- A mnemonic that is unknown is refused. -/
  unknown : Mnemonic.ofText? command.mnemonic = none →
    ∃ cause, command.encode labels = .error cause
  /-- Operands that are too few, too many or no registers where these are expected are refused. -/
  unfit : ∀ mnemonic, Mnemonic.ofText? command.mnemonic = some mnemonic →
    (∀ form ∈ mnemonic.forms, form.fits command.operands = false) →
      ∃ cause, command.encode labels = .error cause
  /-- A value that its place cannot hold is refused. -/
  wide : ∀ mnemonic form, Mnemonic.ofText? command.mnemonic = some mnemonic →
    mnemonic.form? command.operands = some form →
      (∃ pair ∈ form.slots.zip command.operands, ¬pair.1.Holds labels pair.2) →
        ∃ cause, command.encode labels = .error cause

variable {command : Command}

/-- A command that is not data is encoded to the bytes of the word that it means. -/
theorem encode_eq_ok {bytes : List Byte} (code : command.isData = false)
    (coded : command.mnemonic ≠ "DW".toList) :
    command.encode labels = .ok bytes ↔
      ∃ mnemonic form word, command.Means labels mnemonic form word ∧ bytes = word.toBytes := by
  simp only [encode, code, Bool.false_eq_true, if_false]
  -- A mnemonic that is unknown means nothing, and a known one is encoded by its forms.
  cases named : Mnemonic.ofText? command.mnemonic with
  | none =>
    constructor
    · intro answered
      cases answered
    · rintro ⟨mnemonic, form, word, means, -⟩
      cases named.symm.trans means.named
  | some mnemonic =>
    -- The word of data is no mnemonic with forms.
    have plain : mnemonic ≠ .dw := by
      rintro rfl
      exact coded (Mnemonic.ofText?_dw named)
    simp only [map_eq_ok, Mnemonic.word_eq_ok plain]
    constructor
    · rintro ⟨word, ⟨form, chosen, spells⟩, rfl⟩
      exact ⟨mnemonic, form, word, ⟨named, chosen, spells⟩, rfl⟩
    · rintro ⟨other, form, word, means, rfl⟩
      obtain rfl : mnemonic = other := Option.some.inj (named.symm.trans means.named)
      exact ⟨word, ⟨form, means.chosen, means.spells⟩, rfl⟩

/-- A command that is not data is refused if it means no word. -/
theorem encode_error (code : command.isData = false) (coded : command.mnemonic ≠ "DW".toList)
    (none : ∀ mnemonic form word, ¬command.Means labels mnemonic form word) :
    ∃ cause, command.encode labels = .error cause := by
  -- Encoding answers or refuses, and an answer would be what the command means.
  cases encoded : command.encode labels with
  | ok bytes =>
    obtain ⟨mnemonic, form, word, means, -⟩ := (encode_eq_ok code coded).mp encoded
    exact absurd means (none mnemonic form word)
  | error cause => exact ⟨cause, rfl⟩

/--
Commands that are not data are encoded as they are written, whatever the values of the labels.

The word of an encoded command is decoded to the operation of its mnemonic and its kind of operands,
and its fields are the registers and the values that are written.
Commands are refused for an unknown mnemonic, for operands that fit no form, and for a value that is
missing or does not fit its field, and for nothing else.
-/
theorem encoded_as_written (labels : Labels) (command : Command)
    (bytes : command.mnemonic ≠ "DB".toList) (words : command.mnemonic ≠ "DW".toList) :
    command.Agrees labels := by
  have code : command.isData = false := beq_eq_false_iff_ne.mpr bytes
  refine ⟨fun bytes => ?_, ?_, ?_, ?_, ?_, ?_⟩
  · -- Two bytes that are put together to a word are the bytes of that word.
    rw [encode_eq_ok code words]
    constructor
    · rintro ⟨mnemonic, form, word, means, rfl⟩
      exact ⟨mnemonic, form, _, _, by rwa [Word.ofBytes_toBytes], rfl⟩
    · rintro ⟨mnemonic, form, high, low, means, rfl⟩
      exact ⟨mnemonic, form, _, means, (Word.toBytes_ofBytes high low).symm⟩
  · intro mnemonic form named chosen holds
    have fits : form.fits command.operands = true := List.find?_some chosen
    -- A form refuses nothing but operands that are too wide for their fields.
    obtain ⟨word, spells⟩ :=
      Form.writes_of_mem form (List.mem_of_find?_eq_some chosen) labels _ fits holds
    have means : command.Means labels mnemonic form word := ⟨named, chosen, spells⟩
    exact ⟨word.toBytes, (encode_eq_ok code words).mpr ⟨mnemonic, form, word, means, rfl⟩⟩
  · intro mnemonic form word means
    exact means.spells.operation (List.mem_of_find?_eq_some means.chosen)
  · -- What is refused means no word.
    intro unknown
    refine encode_error code words fun mnemonic form word means => ?_
    cases unknown.symm.trans means.named
  · intro mnemonic named unfit
    refine encode_error code words fun other form word means => ?_
    obtain rfl : mnemonic = other := Option.some.inj (named.symm.trans means.named)
    have fits := List.find?_some means.chosen
    rw [unfit form (List.mem_of_find?_eq_some means.chosen)] at fits
    cases fits
  · rintro mnemonic form named chosen ⟨pair, member, wide⟩
    refine encode_error code words fun other another word means => ?_
    obtain rfl : mnemonic = other := Option.some.inj (named.symm.trans means.named)
    obtain rfl : form = another := Option.some.inj (chosen.symm.trans means.chosen)
    -- The operand that is too wide is one that the word was read from.
    exact wide (means.spells.reads pair member).holds

/-- One load of a label is encoded where its value is a byte, and refused where it is none. -/
theorem encoded_as_written_load :
    (Command.mk "LD".toList ["V3".toList, "ROWS".toList]).Agrees [("ROWS".toList, 18)] ∧
      encode [("ROWS".toList, 18)] ⟨"LD".toList, ["V3".toList, "ROWS".toList]⟩ =
        .ok [0x63, 0x12] ∧
      (Command.mk "LD".toList ["V3".toList, "ROWS".toList]).Agrees [("ROWS".toList, 300)] ∧
        encode [("ROWS".toList, 300)] ⟨"LD".toList, ["V3".toList, "ROWS".toList]⟩ =
          .error (.valueTooWide "ROWS".toList 8) :=
  ⟨encoded_as_written _ _ (by decide) (by decide), rfl,
    encoded_as_written _ _ (by decide) (by decide), rfl⟩

end Command

end Chip8
