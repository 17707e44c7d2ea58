import Chip8.Assembly.Statement
import Chip8.Proofs.Text.Uppercase

/-!
The statements of a source text and the lines that they stand on.

Every statement says what its own line says, and statements come in the order of their lines.
-/

namespace Chip8

/-- A trimmed text begins with a visible character, if there is anything left of it. -/
theorem trim_head {text rest : List Char} {first : Char} (trimmed : trim text = first :: rest) :
    isBlank first = false := by
  -- The end that is cut off leaves the beginning, which is where blanks were dropped.
  have front : trim text <+: trimStart text := by
    obtain ⟨cut, same⟩ := List.dropWhile_suffix isBlank (l := (trimStart text).reverse)
    exact ⟨cut.reverse, by rw [trim, trimEnd, ← List.reverse_append, same, List.reverse_reverse]⟩
  obtain ⟨behind, same⟩ := front
  rw [trimmed, List.cons_append] at same
  have kept := List.head?_dropWhile_not isBlank text
  rw [← trimStart, ← same] at kept
  simpa using kept

/-- As many pieces are cut as there are separators, and one more. -/
theorem splitAt_length (separator : Char) (text : List Char) :
    (splitAt separator text).length = text.count separator + 1 := by
  -- A separator begins a piece, and any other character joins the first one.
  induction text with
  | nil => rfl
  | cons char rest ih =>
    rw [splitAt]
    split
    · rename_i same
      rw [List.length_cons, ih, same, List.count_cons_self]
    · rename_i other
      rw [List.count_cons_of_ne other, ← ih]
      cases pieces : splitAt separator rest with
      | nil => exact absurd pieces (splitAt_ne_nil separator rest)
      | cons piece others => rfl

namespace Statement

variable {line source : List Char} {number : Nat} {statement : Statement}

/-! ### Mnemonics -/

/-- A text that begins with a visible character is read with a mnemonic. -/
theorem parseCommand_filled {first : Char} {rest : List Char} (visible : isBlank first = false) :
    (parseCommand (first :: rest)).mnemonic ≠ [] := by
  simp [parseCommand, visible]

/-- A line as it is read begins with a visible character, if there is anything left of it. -/
theorem normalized_head {first : Char} {rest : List Char}
    (same : normalized line = first :: rest) : isBlank first = false := by
  rw [normalized] at same
  cases trimmed : trim (uncommented line) with
  | nil => rw [trimmed] at same; cases same
  | cons char others =>
    -- The first character of the upper-case text belongs to the first character of the text.
    obtain ⟨filled, visible⟩ := upperChar_visible (trim_head trimmed)
    obtain ⟨upper, behind, split⟩ := List.exists_cons_of_ne_nil filled
    rw [trimmed, upperText, List.flatMap_cons, split, List.cons_append] at same
    obtain ⟨rfl, -⟩ := List.cons.inj same
    exact visible _ (by rw [split]; exact List.mem_cons_self)

/-- What stands behind a label begins with a visible character, if there is anything. -/
theorem splitLabel_head {text rest : List Char} {first : Char}
    (start : ∀ char others, text = char :: others → isBlank char = false)
    (same : (splitLabel text).2 = first :: rest) : isBlank first = false := by
  -- What stands behind a colon is trimmed, and a line without label is left as it is.
  unfold splitLabel at same
  split at same
  · cases same
  · split at same
    · split at same
      · exact trim_head same
      · exact start _ _ same
    · exact start _ _ same

/-- A line is read as a command only with a mnemonic. -/
theorem parseLine_filled {command : Command} (parsed : parseLine number line = some statement)
    (present : statement.command = some command) : command.mnemonic ≠ [] := by
  -- Neither the line nor what is left of it behind a label was empty.
  unfold parseLine at parsed
  simp only at parsed
  split at parsed
  · cases parsed
  · obtain rfl := Option.some.inj parsed
    simp only at present
    split at present
    · cases present
    · rename_i filled
      obtain rfl := Option.some.inj present
      cases rest : (splitLabel (normalized line)).2 with
      | nil => exact absurd (by rw [rest]; rfl) filled
      | cons first others =>
        exact parseCommand_filled (splitLabel_head (fun _ _ same => normalized_head same) rest)

/-! ### Lines -/

/-- A line is read as a statement of its number. -/
theorem parseLine_number (parsed : parseLine number line = some statement) :
    statement.line = number := by
  -- The number is handed through.
  unfold parseLine at parsed
  simp only at parsed
  split at parsed
  · cases parsed
  · exact (Option.some.inj parsed) ▸ rfl

/-- A statement is what is said on the line of its number. -/
theorem parseLines_line {lines : List (List Char)} (listed : statement ∈ parseLines number lines) :
    number ≤ statement.line ∧ ∃ text, lines[statement.line - number]? = some text ∧
      parseLine statement.line text = some statement := by
  -- The statement is that of the first line, or of one of the others with their numbers.
  induction lines generalizing number with
  | nil => exact absurd listed List.not_mem_nil
  | cons line rest ih =>
    rw [parseLines, List.mem_append, Option.mem_toList] at listed
    rcases listed with here | later
    · have same := parseLine_number here
      refine ⟨Nat.le_of_eq same.symm, line, ?_, ?_⟩
      · rw [same, Nat.sub_self, List.getElem?_cons_zero]
      · rwa [same]
    · obtain ⟨behind, text, found, parsed⟩ := ih later
      refine ⟨by omega, text, ?_, parsed⟩
      have place : statement.line - number = statement.line - (number + 1) + 1 := by omega
      rw [place, List.getElem?_cons_succ, found]

/-- Statements come in the order of their lines. -/
theorem parseLines_sorted (number : Nat) (lines : List (List Char)) :
    (parseLines number lines).Pairwise fun first second => first.line < second.line := by
  -- The statement of the first line has the first number, and all others have later ones.
  induction lines generalizing number with
  | nil => exact List.Pairwise.nil
  | cons line rest ih =>
    rw [parseLines, List.pairwise_append]
    refine ⟨?_, ih (number + 1), ?_⟩
    · cases parseLine number line with
      | none => exact List.Pairwise.nil
      | some statement => exact List.pairwise_singleton _ _
    · intro first here second later
      rw [parseLine_number (Option.mem_toList.mp here)]
      exact (parseLines_line later).1

/-- A statement of a source text is what its line says. -/
theorem parse_line (listed : statement ∈ parse source) :
    1 ≤ statement.line ∧ statement.line ≤ source.count '\n' + 1 ∧
      ∃ text, (splitAt '\n' source)[statement.line - 1]? = some text ∧
        parseLine statement.line text = some statement := by
  obtain ⟨first, text, found, parsed⟩ := parseLines_line listed
  refine ⟨first, ?_, text, found, parsed⟩
  -- The number of the line is a place among the lines.
  have inside := (List.getElem?_eq_some_iff.mp found).1
  rw [splitAt_length] at inside
  omega

/-- Every command of a source text has a mnemonic. -/
theorem parse_filled {command : Command} (listed : statement ∈ parse source)
    (present : statement.command = some command) : command.mnemonic ≠ [] := by
  obtain ⟨-, -, text, -, parsed⟩ := parse_line listed
  exact parseLine_filled parsed present

end Statement

end Chip8
