import Chip8.Assembly.Statement
import Chip8.Instruction.Text
import Chip8.Proofs.Text.Blank

/-!
Statements that were written in the plain form are read back.

The plain form is a mnemonic, one blank, and operands with a comma and a blank between them.
-/

namespace Chip8

/-- A seven-bit character that is no blank and has no meaning of its own in a source line. -/
def isPlain (char : Char) : Bool :=
  char.toNat < 128 && !isBlank char && char != ',' && char != ';' && char != '#' && char != ':'

/-- A text that has plain characters only, and some. -/
structure IsPlainText (text : List Char) : Prop where
  /-- There is a character. -/
  filled : text ≠ []
  /-- Every character is plain. -/
  plain : ∀ char ∈ text, isPlain char = true

namespace IsPlainText

variable {text : List Char} {char : Char}

/-- A plain text has no blanks. -/
theorem visible (plain : IsPlainText text) : ∀ char ∈ text, isBlank char = false := by
  -- Not being blank is one of the conditions on a plain character.
  intro char member
  have sort := plain.plain char member
  simp only [isPlain, Bool.and_eq_true, Bool.not_eq_true'] at sort
  exact sort.1.1.1.1.2

/-- No mark of the source language is in a plain text. -/
theorem no_marks (plain : IsPlainText text) :
    ',' ∉ text ∧ ';' ∉ text ∧ '#' ∉ text ∧ ':' ∉ text := by
  -- Each of the four marks fails the test for plain characters.
  refine ⟨?_, ?_, ?_, ?_⟩ <;>
  · intro member
    exact absurd (plain.plain _ member) (by decide)

/-- Upper-casing a plain character gives a plain character. -/
theorem upperChar_plain (plain : isPlain char = true) :
    ∃ upper, upperChar char = [upper] ∧ isPlain upper = true := by
  -- There are 128 characters to look at.
  have short : char.toNat < 128 := by
    simp only [isPlain, Bool.and_eq_true, decide_eq_true_eq] at plain
    exact plain.1.1.1.1.1
  have table : isPlain char = true → isPlain char.toUpper = true :=
    of_sevenBit short (by decide +kernel)
  exact ⟨char.toUpper, by rw [upperChar, if_pos short], table plain⟩

/-- Upper-casing a plain text gives a plain text. -/
theorem upper (plain : IsPlainText text) : IsPlainText (upperText text) where
  -- A plain character has one capital, which is plain too.
  filled := by
    obtain ⟨first, rest, rfl⟩ := List.exists_cons_of_ne_nil plain.filled
    obtain ⟨upper, same, -⟩ := upperChar_plain (plain.plain first (List.mem_cons_self ..))
    simp [upperText, same]
  plain found member := by
    obtain ⟨char, inside, made⟩ := List.mem_flatMap.mp member
    obtain ⟨upper, same, sort⟩ := upperChar_plain (plain.plain char inside)
    rw [same, List.mem_singleton] at made
    exact made ▸ sort

end IsPlainText

/-! ### Lists of operands -/

/-- A character of an operand list is a comma, a blank, or stands in an operand. -/
theorem mem_operandList {operands : List (List Char)} {char : Char}
    (member : char ∈ List.intercalate ", ".toList operands) :
    char = ',' ∨ char = ' ' ∨ ∃ operand ∈ operands, char ∈ operand := by
  -- A comma and a blank stand between two operands.
  rcases mem_intercalate member with put | inside
  · have mark : char ∈ [',', ' '] := put
    simp only [List.mem_cons, List.not_mem_nil, or_false] at mark
    exact mark.imp_right .inl
  · exact .inr (.inr inside)

/-- An operand list ends as its last operand does. -/
theorem operandList_last {operands : List (List Char)} (filled : operands ≠ [])
    (plain : ∀ operand ∈ operands, IsPlainText operand) :
    ∃ char, (List.intercalate ", ".toList operands).getLast? = some char ∧
      isBlank char = false := by
  -- A plain text has a last character, and it is visible.
  induction operands with
  | nil => exact absurd rfl filled
  | cons first rest ih =>
    cases rest with
    | nil =>
      have plain := plain first (List.mem_cons_self ..)
      refine ⟨first.getLast plain.filled, ?_, plain.visible _ (List.getLast_mem _)⟩
      rw [List.intercalate_singleton, List.getLast?_eq_some_getLast plain.filled]
    | cons second others =>
      have later : ∀ operand ∈ second :: others, IsPlainText operand :=
        fun operand listed => plain operand (List.mem_cons_of_mem _ listed)
      obtain ⟨char, last, visible⟩ := ih (List.cons_ne_nil _ _) later
      refine ⟨char, ?_, visible⟩
      rw [List.intercalate_cons_cons, List.getLast?_append, last, Option.some_or]

/-- Cutting an operand list at its commas leaves a blank in front of every operand but the first. -/
theorem operandList_commas (first : List Char) (rest : List (List Char)) :
    List.intercalate ", ".toList (first :: rest) =
      List.intercalate [','] (first :: rest.map (' ' :: ·)) := by
  -- The blank behind each comma is counted to the operand that follows.
  induction rest generalizing first with
  | nil => rfl
  | cons second others ih =>
    rw [List.intercalate_cons_cons, ih second, List.map_cons, List.intercalate_cons_cons]
    cases others <;> simp [List.intercalate_cons_cons]

/-- Cutting an operand list at its commas and trimming the pieces gives the operands back. -/
theorem operandList_split {operands : List (List Char)} (filled : operands ≠ [])
    (plain : ∀ operand ∈ operands, IsPlainText operand) :
    (splitAt ',' (List.intercalate ", ".toList operands)).map trim = operands := by
  -- No operand has a comma of its own, so the cuts fall between operands.
  obtain ⟨first, rest, rfl⟩ := List.exists_cons_of_ne_nil filled
  have comma : ∀ piece ∈ first :: rest.map (' ' :: ·), ',' ∉ piece := by
    intro piece listed
    rcases List.mem_cons.mp listed with rfl | later
    · exact (plain _ (List.mem_cons_self ..)).no_marks.1
    · obtain ⟨operand, among, rfl⟩ := List.mem_map.mp later
      simpa using (plain operand (List.mem_cons_of_mem _ among)).no_marks.1
  rw [operandList_commas, splitAt_intercalate comma (List.cons_ne_nil _ _), List.map_cons,
    List.map_map, trim_of_visible (plain first (List.mem_cons_self ..)).visible]
  -- Every further operand has lost exactly the blank behind its comma.
  refine congrArg (first :: ·) ?_
  conv => rhs; rw [← List.map_id rest]
  refine List.map_congr_left fun operand listed => ?_
  exact (trim_blank operand).trans
    (trim_of_visible (plain operand (List.mem_cons_of_mem _ listed)).visible)

/-- Upper-casing an operand list upper-cases its operands. -/
theorem upperText_operandList (operands : List (List Char)) :
    upperText (List.intercalate ", ".toList operands) =
      List.intercalate ", ".toList (operands.map upperText) := by
  -- Comma and blank have no upper case.
  have mark : upperText ", ".toList = ", ".toList := by decide
  induction operands with
  | nil => rfl
  | cons first rest ih =>
    cases rest with
    | nil => simp
    | cons second others =>
      rw [List.intercalate_cons_cons, upperText_append, upperText_append, mark, ih]
      simp only [List.map_cons, List.intercalate_cons_cons]

/-! ### Lines -/

namespace Statement

variable {name : String} {operands : List (List Char)}

/-- A line without a colon has no label. -/
theorem splitLabel_of_no_colon {line : List Char} (absent : ':' ∉ line) :
    splitLabel line = (none, line) := by
  -- Both ways to answer without a label leave the line as it is.
  unfold splitLabel
  split
  · rfl
  · split
    · -- The colon behind a label would stand in the line.
      rename_i first rest _ behind found
      have inside : ':' ∈ rest.dropWhile isLabelPart := found ▸ List.mem_cons_self ..
      have listed := (List.dropWhile_sublist isLabelPart).subset inside
      exact absurd (List.mem_cons_of_mem _ listed) absent
    · rfl

/-- A character of a statement is a blank, a comma, or stands in its name or an operand. -/
theorem mem_statementText {char : Char} (member : char ∈ statementText name operands) :
    char ∈ name.toList ∨ char = ' ' ∨ char = ',' ∨ ∃ operand ∈ operands, char ∈ operand := by
  -- The statement is its name, a blank and the list of operands.
  rw [statementText, List.mem_append, List.mem_cons] at member
  rcases member with named | blank | listed
  · exact .inl named
  · exact .inr (.inl blank)
  · rcases mem_operandList listed with comma | blank | inside
    · exact .inr (.inr (.inl comma))
    · exact .inr (.inl blank)
    · exact .inr (.inr (.inr inside))

/-- A mark that is no blank between words and no comma does not stand in a plain statement. -/
theorem not_mem_statementText {mark : Char} (visible : mark ≠ ' ') (other : mark ≠ ',')
    (meaning : isPlain mark = false) (named : IsPlainText name.toList)
    (plain : ∀ operand ∈ operands, IsPlainText operand) : mark ∉ statementText name operands := by
  -- All other characters of the statement are plain.
  intro member
  rcases mem_statementText member with inside | blank | comma | ⟨operand, listed, inside⟩
  · simp [named.plain mark inside] at meaning
  · exact visible blank
  · exact other comma
  · simp [(plain operand listed).plain mark inside] at meaning

/-- A plain statement is read without change, but for the case of its operands. -/
theorem normalized_statementText (named : IsPlainText name.toList)
    (upper : upperText name.toList = name.toList) (filled : operands ≠ [])
    (plain : ∀ operand ∈ operands, IsPlainText operand) :
    normalized (statementText name operands) = statementText name (operands.map upperText) := by
  have semicolon : ';' ∉ statementText name operands :=
    not_mem_statementText (by decide) (by decide) (by decide) named plain
  have hash : '#' ∉ statementText name operands :=
    not_mem_statementText (by decide) (by decide) (by decide) named plain
  -- No comment is cut off.
  have whole : uncommented (statementText name operands) = statementText name operands := by
    have unmarked : ∀ char ∈ statementText name operands, (char != ';' && char != '#') = true := by
      intro char member
      have first : char ≠ ';' := fun same => semicolon (same ▸ member)
      have second : char ≠ '#' := fun same => hash (same ▸ member)
      simp [first, second]
    rw [uncommented, ← List.append_nil (statementText name operands),
      List.takeWhile_append_of_pos unmarked, List.takeWhile_nil]
  -- No blank is trimmed.
  have trimmed : trim (statementText name operands) = statementText name operands := by
    obtain ⟨first, rest, opening⟩ := List.exists_cons_of_ne_nil named.filled
    obtain ⟨last, ends, visible⟩ := operandList_last filled plain
    have started := named.visible first (opening ▸ List.mem_cons_self ..)
    have text : statementText name operands =
        first :: (rest ++ ' ' :: List.intercalate ", ".toList operands) := by
      rw [statementText, opening, List.cons_append]
    have closed : (statementText name operands).getLast? = some last := by
      rw [statementText, List.getLast?_append, List.getLast?_cons, ends]
      rfl
    rw [text] at closed ⊢
    exact trim_cons started closed visible
  have blank : upperText (' ' :: List.intercalate ", ".toList operands) =
      ' ' :: upperText (List.intercalate ", ".toList operands) := rfl
  rw [normalized, whole, trimmed, statementText, upperText_append, upper, blank,
    upperText_operandList, statementText]

/-- The name and the operands of a plain statement are found again. -/
theorem parseCommand_statementText (named : IsPlainText name.toList) (filled : operands ≠ [])
    (plain : ∀ operand ∈ operands, IsPlainText operand) :
    parseCommand (statementText name operands) = ⟨name.toList, operands⟩ := by
  -- The name ends at the first blank, since none of its own characters is one.
  have solid : ∀ char ∈ name.toList, (!isBlank char) = true := fun char member => by
    simp [named.visible char member]
  have blank : (!isBlank ' ') = false := by decide
  have front : (statementText name operands).takeWhile (fun char => !isBlank char) =
      name.toList := by
    rw [statementText, List.takeWhile_append_of_pos solid, List.takeWhile_cons, blank]
    simp
  have behind : (statementText name operands).dropWhile (fun char => !isBlank char) =
      ' ' :: List.intercalate ", ".toList operands := by
    rw [statementText, List.dropWhile_append_of_pos solid, List.dropWhile_cons, blank]
    simp
  -- The operand list begins with a plain character, so that only one blank is skipped.
  obtain ⟨first, rest, listed⟩ := List.exists_cons_of_ne_nil filled
  have opening := plain first (listed ▸ List.mem_cons_self ..)
  obtain ⟨char, others, begins⟩ := List.exists_cons_of_ne_nil opening.filled
  obtain ⟨tail, text⟩ : ∃ tail, List.intercalate ", ".toList operands = char :: tail := by
    rw [listed, begins]
    exact ⟨_, List.intercalate_cons_cons_left⟩
  have skipped : trimStart (' ' :: List.intercalate ", ".toList operands) =
      List.intercalate ", ".toList operands := by
    have visible := opening.visible char (begins ▸ List.mem_cons_self ..)
    rw [trimStart, List.dropWhile_cons, if_pos (by decide), ← trimStart, text,
      trimStart_cons visible]
  have some : (List.intercalate ", ".toList operands).isEmpty = false := by rw [text]; rfl
  simp only [parseCommand, front, behind, skipped, some, Bool.false_eq_true, if_false,
    operandList_split filled plain]

/-- A plain statement is one command without a label, whose operands are read in upper case. -/
theorem parseLine_statementText (number : Nat) (named : IsPlainText name.toList)
    (upper : upperText name.toList = name.toList) (filled : operands ≠ [])
    (plain : ∀ operand ∈ operands, IsPlainText operand) :
    parseLine number (statementText name operands) =
      some ⟨number, none, some ⟨name.toList, operands.map upperText⟩⟩ := by
  -- Upper-casing comes first, so what is parsed has plain operands still.
  have uppers : ∀ operand ∈ operands.map upperText, IsPlainText operand := by
    intro operand listed
    obtain ⟨lower, among, rfl⟩ := List.mem_map.mp listed
    exact (plain lower among).upper
  have filledUp : operands.map upperText ≠ [] := by simpa using filled
  have label : splitLabel (statementText name (operands.map upperText)) =
      (none, statementText name (operands.map upperText)) :=
    splitLabel_of_no_colon
      (not_mem_statementText (by decide) (by decide) (by decide) named uppers)
  have some : (statementText name (operands.map upperText)).isEmpty = false := by
    simp [statementText]
  simp only [parseLine, normalized_statementText named upper filled plain, some, label,
    Bool.false_eq_true, if_false, parseCommand_statementText named filledUp uppers]

end Statement

end Chip8
