import Chip8.Proofs.Assembly.Operand
import Chip8.Proofs.Refusal

/-!
Printed instructions, and printed words that are no instruction, assemble to their words.

Each is one statement of two bytes, whatever line it stands on and whatever the labels are.
-/

namespace Chip8

/-- A line that is one command without a label, whose word does not depend on any label. -/
structure AssemblesTo (line : List Char) (word : Word) : Prop where
  /-- The line is not cut into several lines. -/
  whole : '\n' ∉ line
  /-- The line is read as a command of two bytes, which encodes to the word. -/
  command : ∃ command : Command,
    (∀ number, Statement.parseLine number line = some ⟨number, none, some command⟩) ∧
      command.isData = false ∧ ∀ labels, command.encode labels = .ok word.toBytes

/-- A printed operand, and the text that is read for it. -/
structure Prints (printed read : List Char) : Prop where
  /-- The operand is plain. -/
  plain : IsPlainText printed
  /-- Its upper-case form is what is read. -/
  upper : upperText printed = read

namespace Prints

/-- A printed register is read as it is printed. -/
theorem register (x : Nibble) : Prints (registerText x) (registerText x) :=
  ⟨plain_registerText x, upperText_registerText x⟩

/-- A printed number is read with its mark in upper case. -/
theorem marked (width value : Nat) : Prints (markedText width value) (markedUpper width value) :=
  ⟨plain_markedText width value, upperText_markedText width value⟩

/-- A printed number of rows is read as it is printed. -/
theorem rows (rows : Nibble) : Prints (Nat.toDigits 10 rows.val) (Nat.toDigits 10 rows.val) := by
  obtain ⟨filled, plain, upper, -⟩ := rowsText_table rows
  exact ⟨.of_all filled plain, upper⟩

/-- The operands that are names of their own. -/
def names : List String :=
  ["I", "DT", "ST", "F", "B", "K", "[I]", "V0"]

/-- A name is read as it is printed. -/
theorem name {name : String} (listed : name ∈ names := by decide) :
    Prints name.toList name.toList := by
  -- There are eight names to look at.
  have table : ∀ name ∈ names, name.toList.isEmpty = false ∧ name.toList.all isPlain = true ∧
      upperText name.toList = name.toList := by decide
  obtain ⟨filled, plain, upper⟩ := table name listed
  exact ⟨.of_all filled plain, upper⟩

end Prints

/-- Mnemonics are printed as they are read, and none of them begins a run of bytes. -/
theorem mnemonic_table : ∀ entry ∈ Mnemonic.names,
    entry.1.isEmpty = false ∧ entry.1.all isPlain = true ∧ upperText entry.1 = entry.1 ∧
      Mnemonic.ofText? entry.1 = some entry.2 ∧ (entry.1 == dataMnemonic) = false := by
  decide

/-- A command with a known mnemonic encodes to the two bytes of its word. -/
theorem encode_of_word {name : String} (mnemonic : Mnemonic) {operands : List (List Char)}
    {word : Word} (listed : (name.toList, mnemonic) ∈ Mnemonic.names)
    (labels : Labels) (encoded : mnemonic.word labels operands = .ok word) :
    Command.encode labels ⟨name.toList, operands⟩ = .ok word.toBytes := by
  -- The mnemonic is found, and does not begin a run of bytes.
  obtain ⟨-, -, -, found, other⟩ := mnemonic_table _ listed
  simp [Command.encode, Command.isData, found, other, encoded, Except.map]

/-- A printed statement whose operands are known assembles to its word. -/
theorem assemblesTo_statementText {name : String} (mnemonic : Mnemonic)
    {operands read : List (List Char)} {word : Word}
    (listed : (name.toList, mnemonic) ∈ Mnemonic.names) (filled : operands ≠ [])
    (plain : ∀ operand ∈ operands, IsPlainText operand) (upper : operands.map upperText = read)
    (encoded : ∀ labels, mnemonic.word labels read = .ok word) :
    AssemblesTo (statementText name operands) word := by
  -- The mnemonic is plain, so parsing gives the operands back in upper case.
  obtain ⟨some, letters, same, -, other⟩ := mnemonic_table _ listed
  have named : IsPlainText name.toList := .of_all some letters
  refine ⟨?_, ⟨name.toList, read⟩, fun number => ?_, other, fun labels => ?_⟩
  · exact Statement.not_mem_statementText (by decide) (by decide) (by decide) named plain
  · rw [← upper]
    exact Statement.parseLine_statementText number named same filled plain
  · exact encode_of_word mnemonic listed labels (encoded labels)

/-- A mnemonic alone on its line assembles to its word. -/
theorem assemblesTo_bare {name : String} (mnemonic : Mnemonic) {word : Word}
    (read : ∀ number, Statement.parseLine number name.toList =
      some ⟨number, none, some ⟨name.toList, []⟩⟩)
    (encoded : ∀ labels, mnemonic.word labels [] = .ok word)
    (listed : (name.toList, mnemonic) ∈ Mnemonic.names := by decide) :
    AssemblesTo name.toList word := by
  -- The mnemonic is plain, so no line break stands in it.
  obtain ⟨-, letters, -, -, other⟩ := mnemonic_table _ listed
  refine ⟨fun member => ?_, ⟨name.toList, []⟩, read, other, fun labels => ?_⟩
  · exact absurd (List.all_eq_true.mp letters _ member) (by decide)
  · exact encode_of_word mnemonic listed labels (encoded labels)

/-- A printed statement with one operand assembles to its word. -/
theorem assemblesTo_single {name : String} (mnemonic : Mnemonic) {printed read : List Char}
    {word : Word} (prints : Prints printed read)
    (encoded : ∀ labels, mnemonic.word labels [read] = .ok word)
    (listed : (name.toList, mnemonic) ∈ Mnemonic.names := by decide) :
    AssemblesTo (statementText name [printed]) word :=
  assemblesTo_statementText mnemonic listed (List.cons_ne_nil _ _) (by simpa using prints.plain)
    (by simp [prints.upper]) encoded

/-- A printed statement with two operands assembles to its word. -/
theorem assemblesTo_pair {name : String} (mnemonic : Mnemonic) {first second one two : List Char}
    {word : Word} (front : Prints first one) (back : Prints second two)
    (encoded : ∀ labels, mnemonic.word labels [one, two] = .ok word)
    (listed : (name.toList, mnemonic) ∈ Mnemonic.names := by decide) :
    AssemblesTo (statementText name [first, second]) word :=
  assemblesTo_statementText mnemonic listed (List.cons_ne_nil _ _)
    (by simpa using ⟨front.plain, back.plain⟩) (by simp [front.upper, back.upper]) encoded

/-- A printed statement with three operands assembles to its word. -/
theorem assemblesTo_triple {name : String} (mnemonic : Mnemonic)
    {first second third one two three : List Char} {word : Word}
    (front : Prints first one) (middle : Prints second two) (back : Prints third three)
    (encoded : ∀ labels, mnemonic.word labels [one, two, three] = .ok word)
    (listed : (name.toList, mnemonic) ∈ Mnemonic.names := by decide) :
    AssemblesTo (statementText name [first, second, third]) word :=
  assemblesTo_statementText mnemonic listed (List.cons_ne_nil _ _)
    (by simpa using ⟨front.plain, middle.plain, back.plain⟩)
    (by simp [front.upper, middle.upper, back.upper]) encoded

open Prints in
/-- A printed instruction assembles to its code. -/
theorem assemblesTo_text (instruction : Instruction) :
    AssemblesTo instruction.text instruction.encode := by
  -- Every instruction has one printed form, which its mnemonic reads by its operands.
  cases instruction with
  | clear => exact assemblesTo_bare .cls (fun _ => rfl) fun _ => rfl
  | ret => exact assemblesTo_bare .ret (fun _ => rfl) fun _ => rfl
  | sys target =>
    exact assemblesTo_single .sys (marked 3 target.val) fun labels => by
      simp [Mnemonic.word, Mnemonic.addressWord]
  | jump target =>
    exact assemblesTo_single .jp (marked 3 target.val) fun labels => by
      simp [Mnemonic.word]
  | call target =>
    exact assemblesTo_single .call (marked 3 target.val) fun labels => by
      simp [Mnemonic.word, Mnemonic.addressWord]
  | skipIfByte x value =>
    exact assemblesTo_pair .se (register x) (marked 2 value.val) fun labels => by
      simp [Mnemonic.word, Mnemonic.eitherWord]
  | skipUnlessByte x value =>
    exact assemblesTo_pair .sne (register x) (marked 2 value.val) fun labels => by
      simp [Mnemonic.word, Mnemonic.eitherWord]
  | skipIfEqual x y =>
    exact assemblesTo_pair .se (register x) (register y) fun labels => by
      simp [Mnemonic.word, Mnemonic.eitherWord]
  | loadByte x value =>
    exact assemblesTo_pair .ld (register x) (marked 2 value.val) fun labels => by
      simp [Mnemonic.word, Mnemonic.loadWord, Mnemonic.eitherWord]
  | addByte x value =>
    exact assemblesTo_pair .add (register x) (marked 2 value.val) fun labels => by
      simp [Mnemonic.word, Mnemonic.eitherWord]
  | copy x y =>
    exact assemblesTo_pair .ld (register x) (register y) fun labels => by
      simp [Mnemonic.word, Mnemonic.loadWord, Mnemonic.eitherWord]
  | bitOr x y =>
    exact assemblesTo_pair .or (register x) (register y) fun labels => by
      simp [Mnemonic.word, Mnemonic.pairWord]
  | bitAnd x y =>
    exact assemblesTo_pair .and (register x) (register y) fun labels => by
      simp [Mnemonic.word, Mnemonic.pairWord]
  | bitXor x y =>
    exact assemblesTo_pair .xor (register x) (register y) fun labels => by
      simp [Mnemonic.word, Mnemonic.pairWord]
  | add x y =>
    exact assemblesTo_pair .add (register x) (register y) fun labels => by
      simp [Mnemonic.word, Mnemonic.eitherWord]
  | sub x y =>
    exact assemblesTo_pair .sub (register x) (register y) fun labels => by
      simp [Mnemonic.word, Mnemonic.pairWord]
  | shiftRight x =>
    exact assemblesTo_single .shr (register x) fun labels => by
      simp [Mnemonic.word, Mnemonic.shiftWord, Instruction.encode]
  | subFrom x y =>
    exact assemblesTo_pair .subn (register x) (register y) fun labels => by
      simp [Mnemonic.word, Mnemonic.pairWord]
  | shiftLeft x =>
    exact assemblesTo_single .shl (register x) fun labels => by
      simp [Mnemonic.word, Mnemonic.shiftWord, Instruction.encode]
  | skipUnlessEqual x y =>
    exact assemblesTo_pair .sne (register x) (register y) fun labels => by
      simp [Mnemonic.word, Mnemonic.eitherWord]
  | loadIndex target =>
    exact assemblesTo_pair .ld name (marked 3 target.val) fun labels => by
      simp [Mnemonic.word, Mnemonic.loadWord]
  | jumpOffset target =>
    exact assemblesTo_pair .jp name (marked 3 target.val) fun labels => by
      simp [Mnemonic.word]
  | random x value =>
    exact assemblesTo_pair .rnd (register x) (marked 2 value.val) fun labels => by
      simp [Mnemonic.word]
  | draw x y height =>
    exact assemblesTo_triple .drw (register x) (register y) (rows height)
      fun labels => by simp [Mnemonic.word]
  | skipIfKey x =>
    exact assemblesTo_single .skp (register x) fun labels => by
      simp [Mnemonic.word, Mnemonic.singleWord]
  | skipUnlessKey x =>
    exact assemblesTo_single .sknp (register x) fun labels => by
      simp [Mnemonic.word, Mnemonic.singleWord]
  | readDelay x =>
    exact assemblesTo_pair .ld (register x) name fun labels => by
      simp [Mnemonic.word, Mnemonic.loadWord]
  | waitKey x =>
    exact assemblesTo_pair .ld (register x) name fun labels => by
      simp [Mnemonic.word, Mnemonic.loadWord]
  | setDelay x =>
    exact assemblesTo_pair .ld name (register x) fun labels => by
      simp [Mnemonic.word, Mnemonic.loadWord]
  | setSound x =>
    exact assemblesTo_pair .ld name (register x) fun labels => by
      simp [Mnemonic.word, Mnemonic.loadWord]
  | addIndex x =>
    exact assemblesTo_pair .add name (register x) fun labels => by
      simp [Mnemonic.word]
  | loadGlyph x =>
    exact assemblesTo_pair .ld name (register x) fun labels => by
      simp [Mnemonic.word, Mnemonic.loadWord]
  | storeDecimal x =>
    exact assemblesTo_pair .ld name (register x) fun labels => by
      simp [Mnemonic.word, Mnemonic.loadWord]
  | storeRegisters x =>
    exact assemblesTo_pair .ld name (register x) fun labels => by
      simp [Mnemonic.word, Mnemonic.loadWord]
  | loadRegisters x =>
    exact assemblesTo_pair .ld (register x) name fun labels => by
      simp [Mnemonic.word, Mnemonic.loadWord]

end Chip8
