import Chip8.Proofs.Assembly.Form
import Chip8.Proofs.Refusal

/-! The encoders of mnemonics answer the words that the first fitting form writes, and no others. -/

namespace Chip8

variable {labels : Labels} {operands : List (List Char)} {operand first second third : List Char}
  {word : Word} {operation : Operation} {code : Nat}

/-! ### Operands -/

namespace Operand

/-- A register is answered for its own text alone. -/
theorem register_eq_ok {x : Nibble} : register operand = .ok x ↔ operand = registerText x := by
  -- The text is the only one that names the register.
  rw [← register?_eq_some, register]
  cases register? operand with
  | none => simp
  | some y => simp

/-- A value is answered for an operand that stands for it, if it is in the range of the field. -/
theorem value_eq_ok {bits : Nat} {field : Fin (1 <<< bits)} :
    value labels operand bits = .ok field ↔ integer labels operand = .ok (field.val : Int) := by
  simp only [value, bind_eq_ok]
  constructor
  · rintro ⟨number, read, fits⟩
    split at fits
    case isFalse => cases fits
    split at fits
    case isTrue => cases fits
    -- A number that is not negative is the field that it is put in.
    cases fits
    rw [read, Int.toNat_of_nonneg (by omega)]
  · intro read
    have positive : ¬((field.val : Int) < 0) := by omega
    exact ⟨field.val, read, by simp [positive]⟩

end Operand

/-! ### Words that are built -/

namespace Form

/-- An address is built into the word that a form with an address writes. -/
theorem address_eq_ok {build : Address → Word} {top : Nibble}
    (built : ∀ address, build address = .ofAddress top address) (split : code = 4096 * top.val) :
    (Operand.address labels first >>= fun address => pure (build address)) = .ok word ↔
      Spells labels [first] ⟨[.address], operation, code⟩ word := by
  -- The address of the word is the one that it was built from.
  simp only [bind_eq_ok, pure_eq_ok, Except.ok.injEq, built, spells_one, Slot.Reads, Slot.part]
  constructor
  · rintro ⟨address, read, rfl⟩
    rw [Word.address_ofAddress, split]
    exact ⟨Operand.value_eq_ok.mp read, rfl⟩
  · rintro ⟨read, digits⟩
    refine ⟨word.address, Operand.value_eq_ok.mpr read, Fin.ext ?_⟩
    simp only [Word.ofAddress]
    omega

/-- A register is built into the word that a form with a register writes. -/
theorem register_eq_ok {build : Nibble → Word} {top : Nibble} {low : Byte}
    (built : ∀ x, build x = .ofByte top x low) (split : code = 4096 * top.val + low.val) :
    (Operand.register first >>= fun x => pure (build x)) = .ok word ↔
      Spells labels [first] ⟨[.x], operation, code⟩ word := by
  -- The register of the word is the one that it was built from.
  simp only [bind_eq_ok, pure_eq_ok, Except.ok.injEq, built, spells_one, Slot.Reads, Slot.part,
    Operand.register_eq_ok]
  constructor
  · rintro ⟨x, named, rfl⟩
    rw [Word.x_ofByte]
    refine ⟨named, ?_⟩
    simp only [Word.ofByte]
    omega
  · rintro ⟨named, digits⟩
    refine ⟨word.x, named, Fin.ext ?_⟩
    simp only [Word.ofByte]
    omega

/-- Two registers are built into the word that a form with two registers writes. -/
theorem pair_eq_ok {build : Nibble → Nibble → Word} {top last : Nibble}
    (built : ∀ x y, build x y = .ofNibbles top x y last)
    (split : code = 4096 * top.val + last.val) :
    (Operand.register first >>= fun x => Operand.register second >>= fun y => pure (build x y)) =
        .ok word ↔
      Spells labels [first, second] ⟨[.x, .y], operation, code⟩ word := by
  -- The registers of the word are those that it was built from.
  simp only [bind_eq_ok, pure_eq_ok, Except.ok.injEq, built, spells_two, Slot.Reads, Slot.part,
    Operand.register_eq_ok]
  constructor
  · rintro ⟨x, one, y, two, rfl⟩
    rw [Word.x_ofNibbles, Word.y_ofNibbles]
    refine ⟨one, two, ?_⟩
    simp only [Word.ofNibbles]
    omega
  · rintro ⟨one, two, digits⟩
    refine ⟨word.x, one, word.y, two, Fin.ext ?_⟩
    simp only [Word.ofNibbles]
    omega

/-- A register and a byte are built into the word that a form with both writes. -/
theorem byte_eq_ok {build : Nibble → Byte → Word} {top : Nibble}
    (built : ∀ x byte, build x byte = .ofByte top x byte) (split : code = 4096 * top.val) :
    (Operand.register first >>= fun x =>
        Operand.byte labels second >>= fun byte => pure (build x byte)) = .ok word ↔
      Spells labels [first, second] ⟨[.x, .byte], operation, code⟩ word := by
  -- The register and the byte of the word are those that it was built from.
  simp only [bind_eq_ok, pure_eq_ok, Except.ok.injEq, built, spells_two, Slot.Reads, Slot.part,
    Operand.register_eq_ok]
  constructor
  · rintro ⟨x, named, byte, read, rfl⟩
    rw [Word.x_ofByte, Word.byte_ofByte]
    refine ⟨named, Operand.value_eq_ok.mp read, ?_⟩
    simp only [Word.ofByte]
    omega
  · rintro ⟨named, read, digits⟩
    refine ⟨word.x, named, word.byte, Operand.value_eq_ok.mpr read, Fin.ext ?_⟩
    simp only [Word.ofByte]
    omega

/-- Two registers and a number of rows are built into the word that a form with all three writes. -/
theorem rows_eq_ok {build : Nibble → Nibble → Nibble → Word} {top : Nibble}
    (built : ∀ x y rows, build x y rows = .ofNibbles top x y rows)
    (split : code = 4096 * top.val) :
    (Operand.register first >>= fun x => Operand.register second >>= fun y =>
        Operand.value labels third 4 >>= fun rows => pure (build x y rows)) = .ok word ↔
      Spells labels [first, second, third] ⟨[.x, .y, .nibble], operation, code⟩ word := by
  -- The three fields of the word are those that it was built from.
  simp only [bind_eq_ok, pure_eq_ok, Except.ok.injEq, built, spells_three, Slot.Reads, Slot.part,
    Operand.register_eq_ok]
  constructor
  · rintro ⟨x, one, y, two, rows, read, rfl⟩
    rw [Word.x_ofNibbles, Word.y_ofNibbles, Word.nibble_ofNibbles]
    refine ⟨one, two, Operand.value_eq_ok.mp read, ?_⟩
    simp only [Word.ofNibbles]
    omega
  · rintro ⟨one, two, read, digits⟩
    refine ⟨word.x, one, word.y, two, word.nibble, Operand.value_eq_ok.mpr read, Fin.ext ?_⟩
    simp only [Word.ofNibbles]
    omega

/-- A refusal answers operands that are more or fewer than the places of every form. -/
theorem error_eq_ok {forms : List Form} {cause : AssemblyCause}
    (counts : ∀ form ∈ forms, form.slots.length ≠ operands.length) :
    Except.error cause = .ok word ↔ FirstSpells labels operands forms word := by
  -- A form with another number of operands spells nothing.
  constructor
  · intro answered
    cases answered
  · intro spells
    exact absurd spells (not_firstSpells counts)

end Form

/-! ### Encoders -/

namespace Mnemonic

open Form

/-- No operands are encoded to the word that a form without places writes. -/
theorem bareWord_eq_ok {bare : Word} (value : bare.val = code) :
    (if operands.isEmpty then Except.ok bare
      else .error (AssemblyCause.operandCount [0] operands.length)) = .ok word ↔
      FirstSpells labels operands [⟨[], operation, code⟩] word := by
  -- Without operands there is one word to spell.
  match operands with
  | [] =>
    rw [firstSpells_single, spells_none, ← value]
    exact ⟨fun answered => congrArg Fin.val (Except.ok.inj answered).symm,
      fun same => congrArg Except.ok (Fin.ext same.symm)⟩
  | first :: rest => exact error_eq_ok (by simp)

/-- An address is encoded to the word that a form with an address writes. -/
theorem addressWord_eq_ok {instruction : Address → Instruction} {top : Nibble}
    (built : ∀ address, (instruction address).encode = .ofAddress top address)
    (split : code = 4096 * top.val) :
    addressWord labels operands instruction = .ok word ↔
      FirstSpells labels operands [⟨[.address], operation, code⟩] word := by
  -- Only a single operand is not refused for its number.
  match operands with
  | [] => exact error_eq_ok (by simp)
  | [first] =>
    rw [firstSpells_single]
    exact address_eq_ok built split
  | first :: second :: rest => exact error_eq_ok (by simp)

/-- A register is encoded to the word that a form with a register writes. -/
theorem singleWord_eq_ok {instruction : Nibble → Instruction} {top : Nibble} {low : Byte}
    (built : ∀ x, (instruction x).encode = .ofByte top x low)
    (split : code = 4096 * top.val + low.val) :
    singleWord operands instruction = .ok word ↔
      FirstSpells labels operands [⟨[.x], operation, code⟩] word := by
  -- Only a single operand is not refused for its number.
  match operands with
  | [] => exact error_eq_ok (by simp)
  | [first] =>
    rw [firstSpells_single]
    exact register_eq_ok built split
  | first :: second :: rest => exact error_eq_ok (by simp)

/-- What two operands are encoded to is what the first of some forms with two places writes. -/
theorem twoWord_eq_ok {forms : List Form}
    {encode : List Char → List Char → Except AssemblyCause Word}
    (places : ∀ form ∈ forms, form.slots.length = 2)
    (encoded : ∀ first second,
      encode first second = .ok word ↔ FirstSpells labels [first, second] forms word) :
    (match operands with
      | [first, second] => encode first second
      | _ => .error (.operandCount [2] operands.length)) = .ok word ↔
      FirstSpells labels operands forms word := by
  -- With any other number of operands both sides are refused.
  have count (form : Form) (member : form ∈ forms) (other : operands.length ≠ 2) :
      form.slots.length ≠ operands.length := by
    rw [places form member]
    exact other.symm
  match operands with
  | [] => exact error_eq_ok fun form member => count form member (by simp)
  | [first] => exact error_eq_ok fun form member => count form member (by simp)
  | [first, second] => exact encoded first second
  | first :: second :: third :: rest =>
    exact error_eq_ok fun form member => count form member (by simp)

/-- Two registers are encoded to the word that a form with two registers writes. -/
theorem pairWord_eq_ok {instruction : Nibble → Nibble → Instruction} {top last : Nibble}
    (built : ∀ x y, (instruction x y).encode = .ofNibbles top x y last)
    (split : code = 4096 * top.val + last.val) :
    pairWord operands instruction = .ok word ↔
      FirstSpells labels operands [⟨[.x, .y], operation, code⟩] word := by
  refine twoWord_eq_ok (by simp) fun first second => ?_
  rw [firstSpells_single]
  exact pair_eq_ok built split

/-- A shift is encoded with one register, or with two of which it keeps the second. -/
theorem shiftWord_eq_ok {selector : Nibble}
    (split : code = 4096 * (8 : Nibble).val + selector.val) :
    shiftWord operands selector = .ok word ↔
      FirstSpells labels operands
        [⟨[.x], operation, code⟩, ⟨[.x, .y], operation, code⟩] word := by
  match operands with
  | [] => exact error_eq_ok (by simp)
  | [first] =>
    have more : ¬FirstSpells labels [first] [⟨[.x, .y], operation, code⟩] word :=
      not_firstSpells (by simp)
    simp only [firstSpells_cons, more, and_false, or_false]
    -- Without a second register, the last two digits of a shift are its selector as a byte.
    have low (x : Nibble) :
        Word.ofNibbles 8 x 0 selector = .ofByte 8 x ⟨selector.val, by omega⟩ := rfl
    exact register_eq_ok low split
  | [first, second] =>
    rw [firstSpells_skip rfl, firstSpells_single]
    exact pair_eq_ok (fun x y => rfl) split
  | first :: second :: third :: rest => exact error_eq_ok (by simp)

/-- A register or else a byte is encoded to the word of the one, or else of the other. -/
theorem eitherWord_eq_ok {withRegister : Nibble → Nibble → Instruction}
    {withByte : Nibble → Byte → Instruction} {top last other : Nibble} {another : Operation}
    {byteCode : Nat}
    (built : ∀ x y, (withRegister x y).encode = .ofNibbles top x y last)
    (builtByte : ∀ x byte, (withByte x byte).encode = .ofByte other x byte)
    (split : code = 4096 * top.val + last.val) (splitByte : byteCode = 4096 * other.val) :
    (Operand.register first >>= fun x =>
        eitherWord labels second (withRegister x) (withByte x)) = .ok word ↔
      FirstSpells labels [first, second]
        [⟨[.x, .y], operation, code⟩, ⟨[.x, .byte], another, byteCode⟩] word := by
  rw [firstSpells_cons, firstSpells_single, ← pair_eq_ok built split,
    ← byte_eq_ok builtByte splitByte]
  -- Without a first register, all three computations refuse.
  cases named : Operand.register? first with
  | none => simp [Operand.register, named]
  | some x =>
    cases chosen : Operand.register? second with
    | none => simp [eitherWord, fits, Slot.takes, Operand.register, named, chosen]
    | some y => simp [eitherWord, fits, Slot.takes, Operand.register, named, chosen]

/-- A load is encoded to the word that the first of its forms writes. -/
theorem loadWord_eq_ok : loadWord labels first second = .ok word ↔
    FirstSpells labels [first, second] Mnemonic.ld.forms word := by
  unfold loadWord forms
  -- The names in front come first, then the names behind a register.
  rw [firstSpells_name (by decide), firstSpells_name (by decide), firstSpells_name (by decide),
    firstSpells_name (by decide), firstSpells_name (by decide), firstSpells_name (by decide),
    firstSpells_name_behind (by decide), firstSpells_name_behind (by decide),
    firstSpells_name_behind (by decide)]
  by_cases index : first = "I".toList
  · rw [if_pos index, if_pos index]
    exact address_eq_ok (fun _ => rfl) rfl
  rw [if_neg index, if_neg index]
  by_cases setDelay : first = "DT".toList
  · rw [if_pos setDelay, if_pos setDelay]
    exact register_eq_ok (fun _ => rfl) rfl
  rw [if_neg setDelay, if_neg setDelay]
  by_cases setSound : first = "ST".toList
  · rw [if_pos setSound, if_pos setSound]
    exact register_eq_ok (fun _ => rfl) rfl
  rw [if_neg setSound, if_neg setSound]
  by_cases glyph : first = "F".toList
  · rw [if_pos glyph, if_pos glyph]
    exact register_eq_ok (fun _ => rfl) rfl
  rw [if_neg glyph, if_neg glyph]
  by_cases decimal : first = "B".toList
  · rw [if_pos decimal, if_pos decimal]
    exact register_eq_ok (fun _ => rfl) rfl
  rw [if_neg decimal, if_neg decimal]
  by_cases store : first = "[I]".toList
  · rw [if_pos store, if_pos store]
    exact register_eq_ok (fun _ => rfl) rfl
  rw [if_neg store, if_neg store]
  -- What is left begins with a register, and the second operand may be a name.
  by_cases readDelay : second = "DT".toList
  · simp only [if_pos readDelay]
    exact register_eq_ok (fun _ => rfl) rfl
  simp only [if_neg readDelay]
  by_cases waitKey : second = "K".toList
  · simp only [if_pos waitKey]
    exact register_eq_ok (fun _ => rfl) rfl
  simp only [if_neg waitKey]
  by_cases load : second = "[I]".toList
  · simp only [if_pos load]
    exact register_eq_ok (fun _ => rfl) rfl
  simp only [if_neg load]
  -- Without any name the second operand is a register or a byte.
  exact eitherWord_eq_ok (fun _ _ => rfl) (fun _ _ => rfl) rfl rfl

/-- An addition is encoded to the word that the first of its forms writes. -/
theorem addWord_eq_ok :
    (if first = "I".toList then do
        return (Instruction.addIndex (← Operand.register second)).encode
      else do
        let x ← Operand.register first
        eitherWord labels second (.add x) (.addByte x)) = .ok word ↔
      FirstSpells labels [first, second] Mnemonic.add.forms word := by
  unfold forms
  -- The name of the address register is no register, so it chooses the first form.
  rw [firstSpells_name (by decide)]
  by_cases index : first = "I".toList
  · rw [if_pos index, if_pos index]
    exact register_eq_ok (fun _ => rfl) rfl
  rw [if_neg index, if_neg index]
  exact eitherWord_eq_ok (fun _ _ => rfl) (fun _ _ => rfl) rfl rfl

/-- A jump is encoded to the word that the first of its forms writes. -/
theorem jumpWord_eq_ok :
    jp.word labels operands = .ok word ↔ FirstSpells labels operands jp.forms word := by
  match operands with
  | [] => exact error_eq_ok (by decide)
  | [target] =>
    -- A single operand is too few for the second form, and two are too many for the first.
    have more : ¬FirstSpells labels [target]
        [⟨[.name "V0".toList, .address], .jumpOffset, 0xB000⟩] word := not_firstSpells (by simp)
    simp only [forms, firstSpells_cons, more, and_false, or_false]
    exact address_eq_ok (fun _ => rfl) rfl
  | [base, target] =>
    rw [forms, firstSpells_skip rfl, firstSpells_single, spells_name]
    by_cases first : base = "V0".toList
    · simp only [Mnemonic.word, if_pos first]
      rw [and_iff_right first]
      exact address_eq_ok (fun _ => rfl) rfl
    · simp only [Mnemonic.word, if_neg first, reduceCtorEq, false_iff, not_and]
      exact fun named => absurd named first
  | base :: target :: third :: rest => exact error_eq_ok (by simp [forms])

/-- A sprite is encoded to the word that a form with two registers and rows writes. -/
theorem drawWord_eq_ok :
    drw.word labels operands = .ok word ↔ FirstSpells labels operands drw.forms word := by
  -- Only three operands are not refused for their number.
  match operands with
  | [] => exact error_eq_ok (by decide)
  | [first] => exact error_eq_ok (by simp [forms])
  | [first, second] => exact error_eq_ok (by simp [forms])
  | [first, second, rows] =>
    rw [forms, firstSpells_single]
    exact rows_eq_ok (fun _ _ _ => rfl) rfl
  | first :: second :: rows :: fourth :: rest => exact error_eq_ok (by simp [forms])

/-- A mnemonic is encoded to the word that the first of its forms writes. -/
theorem word_eq_ok {mnemonic : Mnemonic} (coded : mnemonic ≠ .dw) :
    mnemonic.word labels operands = .ok word ↔
      FirstSpells labels operands mnemonic.forms word := by
  -- Each mnemonic belongs to a family of encoders, and differs from the others in its code.
  cases mnemonic with
  | dw => exact absurd rfl coded
  | cls => exact bareWord_eq_ok rfl
  | ret => exact bareWord_eq_ok rfl
  | sys => exact addressWord_eq_ok (fun _ => rfl) rfl
  | jp => exact jumpWord_eq_ok
  | call => exact addressWord_eq_ok (fun _ => rfl) rfl
  | se =>
    refine twoWord_eq_ok (by decide) fun first second => ?_
    exact eitherWord_eq_ok (fun _ _ => rfl) (fun _ _ => rfl) rfl rfl
  | sne =>
    refine twoWord_eq_ok (by decide) fun first second => ?_
    exact eitherWord_eq_ok (fun _ _ => rfl) (fun _ _ => rfl) rfl rfl
  | ld => exact twoWord_eq_ok (by decide) fun first second => loadWord_eq_ok
  | add => exact twoWord_eq_ok (by decide) fun first second => addWord_eq_ok
  | or => exact pairWord_eq_ok (fun _ _ => rfl) rfl
  | and => exact pairWord_eq_ok (fun _ _ => rfl) rfl
  | xor => exact pairWord_eq_ok (fun _ _ => rfl) rfl
  | sub => exact pairWord_eq_ok (fun _ _ => rfl) rfl
  | subn => exact pairWord_eq_ok (fun _ _ => rfl) rfl
  | shr => exact shiftWord_eq_ok rfl
  | shl => exact shiftWord_eq_ok rfl
  -- The random byte is masked with a byte, and has no second form.
  | rnd =>
    refine twoWord_eq_ok (by decide) fun first second => ?_
    exact (byte_eq_ok (fun _ _ => rfl) rfl).trans firstSpells_single.symm
  | drw => exact drawWord_eq_ok
  | skp => exact singleWord_eq_ok (fun _ => rfl) rfl
  | sknp => exact singleWord_eq_ok (fun _ => rfl) rfl

/-- Only its own name names the mnemonic of a plain word. -/
theorem ofText?_dw {text : List Char} (named : ofText? text = some .dw) : text = "DW".toList := by
  -- The name is in the table, and no other character is read as one of its letters.
  obtain ⟨front, back, split, -⟩ := List.lookup_eq_some_iff.mp named
  have listed : (text.map plainLetter, Mnemonic.dw) ∈ names := by
    rw [split]
    exact List.mem_append_right front List.mem_cons_self
  have table : ∀ entry ∈ names, entry.2 = .dw → entry.1 = "DW".toList := by decide
  have letters : text.map plainLetter = "DW".toList := table _ listed rfl
  have plain {char letter : Char} (other : letter ≠ 'K') (read : plainLetter char = letter) :
      char = letter := by
    unfold plainLetter at read
    split at read
    · exact absurd read.symm other
    · exact read
  obtain ⟨first, rest, rfl, one, behind⟩ := List.map_eq_cons_iff.mp letters
  obtain ⟨second, last, rfl, two, done⟩ := List.map_eq_cons_iff.mp behind
  obtain rfl := List.map_eq_nil_iff.mp done
  rw [plain (by decide) one, plain (by decide) two]
  rfl

end Mnemonic

end Chip8
