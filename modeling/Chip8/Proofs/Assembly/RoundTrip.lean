import Chip8.Assembly.Image
import Chip8.Proofs.Assembly.Printed
import Chip8.Proofs.Instruction.Canonical

/-!
Programs that were disassembled assemble again, to the words that they were, without the digits that
no instruction looks at.
-/

namespace Chip8

/-- The bytes of words in order. -/
def wordBytes (words : List Word) : List Byte :=
  words.flatMap Word.toBytes

/-- A disassembled word assembles to the word, but for the digits that are left unread. -/
theorem assemblesTo_wordText (word : Word) : AssemblesTo word.text word.cleared := by
  cases decoded : word.decode with
  | some instruction =>
    have text : word.text = instruction.text := by simp only [Word.text, decoded]
    rw [text, ← Word.encode_of_decode decoded]
    exact assemblesTo_text instruction
  | none =>
    -- A word without an instruction is printed as data.
    have text : word.text = statementText "DW" [markedText 4 word.val] := by
      simp only [Word.text, decoded, markedText]
    rw [text, Word.cleared_of_invalid decoded]
    exact assemblesTo_single .dw (.marked 4 word.val) fun labels => by
      simp [Mnemonic.word]

/-- Lines that assemble to words are laid out one behind the other, and emit their words. -/
theorem place_lines (words : List Word) {text : Word → List Char} {code : Word → Word}
    (assembles : ∀ word, AssemblesTo (text word) (code word)) (number : Nat) (labels : Labels)
    {address : Int} (even : address % 2 = 0)
    (fits : address + 2 * words.length ≤ memorySize) :
    ∃ placed, Layout.place labels [] address (Statement.parseLines number (words.map text)) =
        .ok ⟨labels, placed⟩ ∧
      ∀ values, Layout.emit values address placed = .ok (wordBytes (words.map code)) := by
  -- Each line takes the two bytes at an even address and leaves an even address.
  induction words generalizing number address with
  | nil => exact ⟨[], rfl, fun _ => rfl⟩
  | cons word rest ih =>
    obtain ⟨command, parsed, data, encoded⟩ := (assembles word).command
    rw [List.length_cons] at fits
    have start : command.startFrom address = address := by
      simp [Command.startFrom, data, even]
    have size : command.size = 2 := by
      simp [Command.size, data]
    obtain ⟨placed, layout, emitted⟩ :=
      ih (number + 1) (show (address + 2) % 2 = 0 by omega) (by omega)
    refine ⟨⟨number, address, command⟩ :: placed, ?_, fun values => ?_⟩
    · have inside : ¬(memorySize : Int) < address + 2 := by omega
      simp [Statement.parseLines, parsed, Layout.place, Layout.await, Layout.bindAll, start, size,
        inside, layout, Except.map]
    · have behind : address + ((code word).toBytes.length : Int) = address + 2 := rfl
      simp [Layout.emit, encoded, behind, emitted, Except.map, wordBytes]

/--
A disassembled program assembles to its words, without the digits that no instruction looks at.

Executing a word without these digits does the same as executing the word.
-/
theorem assemble_disassembled (words : List Word) (few : words.length ≤ 1792) :
    assemble (List.intercalate ['\n'] (words.map Word.text)) programStart =
        .ok (wordBytes (words.map Word.cleared)) ∧
      ∀ (word : Word) registers board,
        execute word.cleared registers board = execute word registers board := by
  refine ⟨?_, Word.execute_cleared⟩
  cases words with
  | nil => rfl
  | cons word rest =>
    -- The text is cut into the lines that it was joined from.
    have lines : splitAt '\n' (List.intercalate ['\n'] ((word :: rest).map Word.text)) =
        (word :: rest).map Word.text := by
      refine splitAt_intercalate (fun line listed => ?_) (List.cons_ne_nil _ _)
      obtain ⟨word, -, rfl⟩ := List.mem_map.mp listed
      exact (assemblesTo_wordText word).whole
    have fits : (programStart : Int) + 2 * (word :: rest).length ≤ memorySize := by
      simp only [programStart, memorySize]
      omega
    obtain ⟨placed, layout, emitted⟩ :=
      place_lines (word :: rest) assemblesTo_wordText 1 [] (by decide) fits
    rw [assemble, assembleStatements, Statement.parse, lines, Layout.ofStatements, layout]
    exact emitted []

/-- A load, a comparison, a shift and a word without instruction are assembled from their text. -/
theorem assemble_disassembled_four :
    assemble "LD VA, 0x2A\nSE V1, V2\nSHR V1\nDW 0xFFFF".toList programStart =
        .ok [0x6A, 0x2A, 0x51, 0x20, 0x81, 0x06, 0xFF, 0xFF] ∧
      ∀ (word : Word) registers board,
        execute word.cleared registers board = execute word registers board := by
  -- Two of the four words have a digit that is not read, and come back with a zero there.
  have text : "LD VA, 0x2A\nSE V1, V2\nSHR V1\nDW 0xFFFF".toList =
      List.intercalate ['\n'] ([0x6A2A, 0x5127, 0x8126, 0xFFFF].map Word.text) := by decide
  have bytes : wordBytes ([0x6A2A, 0x5127, 0x8126, 0xFFFF].map Word.cleared) =
      [0x6A, 0x2A, 0x51, 0x20, 0x81, 0x06, 0xFF, 0xFF] := by decide
  rw [text, ← bytes]
  exact assemble_disassembled [0x6A2A, 0x5127, 0x8126, 0xFFFF] (by decide)

end Chip8
