import Chip8.Assembly.Image
import Chip8.Proofs.Assembly.Source

/-!
Surface syntax does not matter.

Letters of either case, blanks around the parts of a line and comments behind it may be changed on
every line of a source text, and it assembles to the same image or fails with the same error.
-/

namespace Chip8

namespace Statement

/-! ### Places where blanks do not count -/

/-- A name that a label may have, in upper case. -/
def IsLabelName (name : List Char) : Prop :=
  ∃ first rest, name = first :: rest ∧ isLabelStart first = true ∧
    ∀ char ∈ rest, isLabelPart char = true

/-- Text in front of a mnemonic: blanks, and perhaps a label whose colon stands among them. -/
inductive Heading (mnemonic : List Char) : List Char → Prop
  /-- There is no label, and the mnemonic is not read as one. -/
  | plain {indent : List Char} (blank : Blanks indent)
      (unlabelled : ∀ name behind, IsLabelName name → mnemonic ≠ name ++ ':' :: behind) :
      Heading mnemonic indent
  /-- There is a label. -/
  | labelled {indent name gap : List Char} (blank : Blanks indent) (named : IsLabelName name)
      (between : Blanks gap) : Heading mnemonic (indent ++ name ++ ':' :: gap)

/-- The first part of a line, which reaches over heading, mnemonic and blanks into the operands. -/
inductive ReachesOperands : List Char → Prop
  | operands {heading mnemonic gap : List Char} (word : IsWord mnemonic)
      (headed : Heading mnemonic heading) (blank : Blanks gap) (filled : gap ≠ [])
      (operands : List Char) : ReachesOperands (heading ++ mnemonic ++ gap ++ operands)

/--
Between the two parts of a line, more blanks do not count.

The line is taken as it is read, in upper case and without its comment.
-/
inductive Slack : List Char → List Char → Prop
  /-- At the start of the line. -/
  | start {front back : List Char} (blank : Blanks front) : Slack front back
  /-- At the end of the line. -/
  | finish {front back : List Char} (blank : Blanks back) : Slack front back
  /-- Behind the colon of a label. -/
  | colon {indent name gap back : List Char} (blank : Blanks indent) (named : IsLabelName name)
      (between : Blanks gap) : Slack (indent ++ name ++ ':' :: gap) back
  /-- Between mnemonic and operands, where there is a blank already. -/
  | gap {heading mnemonic before after operands : List Char} (word : IsWord mnemonic)
      (headed : Heading mnemonic heading) (first : Blanks before) (second : Blanks after)
      (filled : before ++ after ≠ []) : Slack (heading ++ mnemonic ++ before) (after ++ operands)
  /-- In front of a comma between operands. -/
  | beforeComma {front gap back : List Char} (operands : ReachesOperands front)
      (blank : Blanks gap) : Slack front (gap ++ ',' :: back)
  /-- Behind a comma between operands. -/
  | afterComma {front gap back : List Char} (operands : ReachesOperands front)
      (blank : Blanks gap) : Slack (front ++ ',' :: gap) back

/-- Text of spaces and tabs only. -/
def Spaces (text : List Char) : Prop :=
  ∀ char ∈ text, char = ' ' ∨ char = '\t'

instance (text : List Char) : Decidable (Spaces text) :=
  List.decidableBAll _ text

/-- A line is another one but for its surface. -/
inductive Respelled : List Char → List Char → Prop
  /-- Letters of the seven-bit range are written in another case. -/
  | cased {line other : List Char} (same : line.map Char.toUpper = other.map Char.toUpper) :
      Respelled line other
  /-- Spaces and tabs are put where they do not count. -/
  | spaced {front back spaces : List Char}
      (slack : Slack (upperText front) (upperText (uncommented back))) (blank : Spaces spaces) :
      Respelled (front ++ back) (front ++ spaces ++ back)
  /-- A comment is put behind the line. -/
  | commented {line comment : List Char} {mark : Char} (marks : mark = ';' ∨ mark = '#') :
      Respelled line (line ++ mark :: comment)
  /-- What was put somewhere is taken away. -/
  | symm {line other : List Char} (respelled : Respelled line other) : Respelled other line
  /-- There are several changes, one after the other. -/
  | trans {line between other : List Char} (first : Respelled line between)
      (second : Respelled between other) : Respelled line other

/-- Lines are respelled one by one. -/
inductive RespelledLines : List (List Char) → List (List Char) → Prop
  | nil : RespelledLines [] []
  | cons {line other : List Char} {lines others : List (List Char)} (first : Respelled line other)
      (rest : RespelledLines lines others) : RespelledLines (line :: lines) (other :: others)

/-! ### What a line says as it is read -/

/-- The command that a text says, if it says anything. -/
def command? (text : List Char) : Option Command :=
  if text.isEmpty then none else some (parseCommand text)

/-- The statement that a normalized line says, if it says anything. -/
def statement? (number : Nat) (text : List Char) : Option Statement :=
  if text.isEmpty then none
  else some ⟨number, (splitLabel text).1, command? (splitLabel text).2⟩

/-- The operands in a text behind a mnemonic. -/
def operandList (text : List Char) : List (List Char) :=
  if text.all isBlank then [] else (splitAt ',' text).map trim

variable {number : Nat} {line other front back blanks heading mnemonic name indent text : List Char}

/-- A line says what it says in upper case, without comment and without blanks at its ends. -/
theorem parseLine_eq (number : Nat) (line : List Char) :
    parseLine number line = statement? number (trim (upperText (uncommented line))) := by
  rw [← upperText_trim, ← normalized]
  rfl

/-- Blanks in front of operands do not count. -/
theorem operandList_front (blank : Blanks blanks) (text : List Char) :
    operandList (blanks ++ text) = operandList text := by
  have none : blanks.all isBlank = true := List.all_eq_true.mpr blank
  rw [operandList, operandList, List.all_append, none, Bool.true_and,
    map_trim_front blank (by decide)]

/-- Blanks behind operands do not count. -/
theorem operandList_back (blank : Blanks blanks) (text : List Char) :
    operandList (text ++ blanks) = operandList text := by
  have none : blanks.all isBlank = true := List.all_eq_true.mpr blank
  rw [operandList, operandList, List.all_append, none, Bool.and_true,
    map_trim_back blank (by decide)]

/-- A comma ends the operand in front of it. -/
theorem operandList_comma (first second : List Char) :
    operandList (first ++ ',' :: second) =
      (splitAt ',' first).map trim ++ (splitAt ',' second).map trim := by
  -- A comma is visible, so there are operands.
  have visible : isBlank ',' = false := by decide
  rw [operandList, List.all_append, List.all_cons, visible, Bool.false_and, Bool.and_false,
    if_neg (by decide), splitAt_append, List.map_append]

/-- A text that no word runs into: it begins with a blank, or is empty. -/
def Apart (text : List Char) : Prop :=
  ∀ char ∈ text.head?, isBlank char = true

/-- Blanks in front set a text apart. -/
theorem Apart.of_blanks (blank : Blanks blanks) (filled : blanks ≠ []) (text : List Char) :
    Apart (blanks ++ text) := by
  -- The first character behind is one of the blanks.
  obtain ⟨first, rest, rfl⟩ := List.exists_cons_of_ne_nil filled
  intro char member
  obtain rfl := Option.some.inj member
  exact blank _ List.mem_cons_self

/-- A text is still apart without its end. -/
theorem Apart.trimEnd (apart : Apart text) : Apart (trimEnd text) := by
  -- If anything is left of the text, then its first character is.
  obtain ⟨blanks, -, same⟩ := exists_trimEnd text
  intro char member
  refine apart char ?_
  rw [same, List.head?_append, Option.mem_def.mp member]
  rfl

/-- A word ends where a text apart from it begins. -/
theorem Apart.stops (apart : Apart text) :
    text.takeWhile (fun char => !isBlank char) = [] ∧
      text.dropWhile (fun char => !isBlank char) = text := by
  -- A text that begins with a blank gives nothing to a word.
  cases text with
  | nil => exact ⟨rfl, rfl⟩
  | cons char rest =>
    have blank := apart char rfl
    simp [blank]

/-- Operands are read behind the blanks in front of them. -/
theorem operandList_trimStart (text : List Char) :
    (if (trimStart text).isEmpty then [] else (splitAt ',' (trimStart text)).map trim) =
      operandList text := by
  -- If nothing is left of the text, then all of it is blank.
  obtain ⟨blanks, blank, same⟩ := exists_trimStart text
  conv => rhs; rw [same, operandList_front blank, operandList]
  cases kept : trimStart text with
  | nil => rfl
  | cons char rest =>
    -- What is left of the text begins with a visible character.
    have found := List.head?_dropWhile_not isBlank text
    rw [← trimStart, kept] at found
    have visible : isBlank char = false := by simpa using found
    simp [visible]

/-- A word and a text apart from it are mnemonic and operands. -/
theorem parseCommand_word (word : IsWord mnemonic) (apart : Apart text) :
    parseCommand (mnemonic ++ text) = ⟨mnemonic, operandList text⟩ := by
  -- The word is passed over to its end, and the text behind it is left.
  have solid : ∀ char ∈ mnemonic, (!isBlank char) = true := by
    intro char member
    rw [word.visible char member]
    rfl
  obtain ⟨none, all⟩ := apart.stops
  rw [parseCommand, List.takeWhile_append_of_pos solid, List.dropWhile_append_of_pos solid,
    none, all, List.append_nil]
  simp only [operandList_trimStart]

/-- What stands behind a word is looked at without its end. -/
theorem command?_word (word : IsWord mnemonic) (apart : Apart text) :
    command? (trim (mnemonic ++ text)) = some ⟨mnemonic, operandList text⟩ := by
  -- The end that is trimmed is blank, and no operand is lost with it.
  obtain ⟨blanks, blank, same⟩ := exists_trimEnd text
  rw [word.trim_append, command?, word.isEmpty_append, parseCommand_word word apart.trimEnd]
  conv => rhs; rw [same, operandList_back blank]
  rfl

/-! ### Labels -/

/-- A character of a label is visible. -/
theorem isBlank_of_isLabelPart {char : Char} (part : isLabelPart char = true) :
    isBlank char = false := by
  have short : char.toNat < 128 := by
    simp only [isLabelPart, isLabelStart, Bool.or_eq_true, Bool.and_eq_true, decide_eq_true_eq,
      beq_iff_eq] at part
    rcases part with ((⟨-, high⟩ | rfl) | rfl) | ⟨-, high⟩
    · exact Nat.lt_of_le_of_lt (show char.toNat ≤ 90 from high) (by decide)
    · decide
    · decide
    · exact Nat.lt_of_le_of_lt (show char.toNat ≤ 57 from high) (by decide)
  -- There are 128 characters to look at.
  have table : isLabelPart char = true → isBlank char = false :=
    of_sevenBit short (by decide +kernel)
  exact table part

/-- A name has visible characters only. -/
theorem IsLabelName.word (named : IsLabelName name) : IsWord name where
  filled := by
    obtain ⟨first, rest, rfl, -⟩ := named
    exact List.cons_ne_nil first rest
  visible := by
    obtain ⟨first, rest, rfl, start, parts⟩ := named
    intro char member
    -- What may start or continue a name is no blank.
    rcases List.mem_cons.mp member with rfl | later
    · exact isBlank_of_isLabelPart (by rw [isLabelPart, start]; rfl)
    · exact isBlank_of_isLabelPart (parts char later)

/-- A name with its colon has visible characters only. -/
theorem IsLabelName.marked (named : IsLabelName name) : IsWord (name ++ [':']) where
  filled := by simp
  visible := by
    intro char member
    -- A colon is no blank either.
    rcases List.mem_append.mp member with inside | colon
    · exact named.word.visible char inside
    · obtain rfl := List.mem_singleton.mp colon
      decide

/-- A name in front of a colon is the label of the line. -/
theorem splitLabel_of_name (named : IsLabelName name) (text : List Char) :
    splitLabel (name ++ ':' :: text) = (some name, trim text) := by
  obtain ⟨first, rest, rfl, start, parts⟩ := named
  -- The name reaches up to the colon, which is no part of it.
  have colon : isLabelPart ':' = false := by decide
  have behind : (rest ++ ':' :: text).dropWhile isLabelPart = ':' :: text := by
    rw [List.dropWhile_append_of_pos parts, List.dropWhile_cons_of_neg (by simp [colon])]
  have before : (rest ++ ':' :: text).takeWhile isLabelPart = rest := by
    rw [List.takeWhile_append_of_pos parts, List.takeWhile_cons_of_neg (by simp [colon]),
      List.append_nil]
  simp only [List.cons_append, splitLabel, behind, before, if_pos start]

/-- A line is left as it is, unless it begins with a name and a colon. -/
theorem splitLabel_cases (text : List Char) :
    splitLabel text = (none, text) ∨
      ∃ name behind, IsLabelName name ∧ text = name ++ ':' :: behind := by
  -- Only a name that a colon follows at once is a label.
  unfold splitLabel
  split
  · exact .inl rfl
  · rename_i first rest
    split
    · rename_i behind found
      split
      · rename_i start
        refine .inr ⟨first :: rest.takeWhile isLabelPart, behind, ?_, ?_⟩
        · exact ⟨first, _, rfl, start, List.all_eq_true.mp List.all_takeWhile⟩
        · rw [List.cons_append, ← found, List.takeWhile_append_dropWhile]
      · exact .inl rfl
    · exact .inl rfl

/-- A mnemonic that is not read as a label is not read as one in front of operands. -/
theorem splitLabel_of_unlabelled
    (unlabelled : ∀ name behind, IsLabelName name → mnemonic ≠ name ++ ':' :: behind)
    (apart : Apart text) :
    splitLabel (mnemonic ++ text) = (none, mnemonic ++ text) := by
  rcases splitLabel_cases (mnemonic ++ text) with same | ⟨name, behind, named, same⟩
  · exact same
  · -- The name with its colon ends in the mnemonic, or else it has the blank behind that.
    exfalso
    rw [List.append_cons, List.append_eq_append_iff] at same
    rcases same with ⟨between, whole, rest⟩ | ⟨rest, whole, -⟩
    · cases between with
      | nil => exact unlabelled name [] named (by rw [← whole.trans (List.append_nil _)])
      | cons char others =>
        have blank := apart char (by rw [rest]; rfl)
        have member : char ∈ name ++ [':'] := by
          rw [whole]
          exact List.mem_append_right mnemonic List.mem_cons_self
        rw [named.marked.visible char member] at blank
        cases blank
    · exact unlabelled name rest named (by rw [whole, ← List.append_cons])

/-! ### Lines of several parts -/

/-- What stands behind a label says the same with blanks around it. -/
theorem statement?_labelled (blank : Blanks indent) (named : IsLabelName name) (text : List Char) :
    statement? number (trim (indent ++ name ++ ':' :: text)) =
      some ⟨number, some name, command? (trim text)⟩ := by
  -- Trimming leaves the name with its colon and the text behind, which is trimmed once more.
  have whole : trim (indent ++ name ++ ':' :: text) = name ++ ':' :: trimEnd text := by
    rw [List.append_assoc, trim_blanks_append blank, List.append_cons, named.marked.trim_append,
      ← List.append_cons]
  rw [whole, statement?, named.word.isEmpty_append, splitLabel_of_name named, trim_trimEnd]
  rfl

/-- A line with a mnemonic has the label of its heading, and the operands behind the mnemonic. -/
theorem statement?_headed (number : Nat) (word : IsWord mnemonic)
    (headed : Heading mnemonic heading) :
    ∃ label, ∀ text, Apart text →
      statement? number (trim (heading ++ mnemonic ++ text)) =
        some ⟨number, label, some ⟨mnemonic, operandList text⟩⟩ := by
  cases headed with
  | plain blank unlabelled =>
    refine ⟨none, ?_⟩
    intro text apart
    -- The whole line is the command.
    have command := command?_word word apart
    rw [List.append_assoc, trim_blanks_append blank]
    rw [word.trim_append] at command ⊢
    rw [statement?, word.isEmpty_append, splitLabel_of_unlabelled unlabelled apart.trimEnd,
      command]
    rfl
  | labelled blank named between =>
    -- The command is what is left behind the colon and the gap.
    rename_i indent name gap
    refine ⟨some name, ?_⟩
    intro text apart
    rw [List.append_assoc, List.append_assoc (indent ++ name), List.cons_append,
      statement?_labelled blank named, trim_blanks_append between, command?_word word apart]

/-- Whatever stands behind the first operands, the line has the same label and mnemonic. -/
theorem statement?_reaching (number : Nat) (reaching : ReachesOperands front) :
    ∃ label mnemonic operands, ∀ text,
      statement? number (trim (front ++ text)) =
        some ⟨number, label, some ⟨mnemonic, operandList (operands ++ text)⟩⟩ := by
  obtain ⟨word, headed, blank, filled, operands⟩ := reaching
  rename_i heading mnemonic gap
  obtain ⟨label, parsed⟩ := statement?_headed number word headed
  refine ⟨label, mnemonic, operands, ?_⟩
  intro text
  -- The gap sets the operands apart and is no part of them.
  rw [List.append_assoc, List.append_assoc (heading ++ mnemonic),
    parsed _ (Apart.of_blanks blank filled _), operandList_front blank]

/-- Blanks where they do not count leave what the line says. -/
theorem Slack.statement?_eq (slack : Slack front back) (blank : Blanks blanks) :
    statement? number (trim (front ++ blanks ++ back)) =
      statement? number (trim (front ++ back)) := by
  cases slack with
  | start empty =>
    -- All blanks in front are trimmed.
    rw [trim_blanks_append (empty.append blank), trim_blanks_append empty]
  | finish empty =>
    rw [List.append_assoc, trim_append_blanks (blank.append empty), trim_append_blanks empty]
  | colon before named between =>
    -- What stands behind the colon is trimmed.
    simp only [List.append_assoc _ _ blanks, List.append_assoc _ _ back, List.cons_append]
    rw [statement?_labelled before named, statement?_labelled before named,
      trim_blanks_append between, trim_blanks_append blank, trim_blanks_append between]
  | gap word headed first second filled =>
    -- All blanks on both sides are one gap behind the mnemonic.
    rename_i heading mnemonic before after operands
    obtain ⟨label, parsed⟩ := statement?_headed number word headed
    have more := (first.append blank).append second
    have fewer := first.append second
    have widened : before ++ blanks ++ after ≠ [] := by
      intro none
      apply filled
      simp only [List.append_eq_nil_iff] at none ⊢
      exact ⟨none.1.1, none.2⟩
    have wide := parsed _ (Apart.of_blanks more widened operands)
    have narrow := parsed _ (Apart.of_blanks fewer filled operands)
    rw [operandList_front more] at wide
    rw [operandList_front fewer] at narrow
    simp only [List.append_assoc] at wide narrow ⊢
    rw [wide, narrow]
  | beforeComma reaching between =>
    -- The comma ends an operand that is trimmed.
    rename_i gap rest
    obtain ⟨label, mnemonic, operands, parsed⟩ := statement?_reaching number reaching
    rw [List.append_assoc, parsed, parsed, ← List.append_assoc, ← List.append_assoc,
      ← List.append_assoc, operandList_comma, operandList_comma, List.append_assoc,
      map_trim_back (blank.append between) (by decide), map_trim_back between (by decide)]
  | afterComma reaching between =>
    -- The comma begins an operand that is trimmed.
    rename_i front gap
    obtain ⟨label, mnemonic, operands, parsed⟩ := statement?_reaching number reaching
    rw [List.append_assoc, List.append_assoc, List.append_assoc, parsed, parsed, List.cons_append,
      List.cons_append, operandList_comma, operandList_comma, ← List.append_assoc,
      map_trim_front (between.append blank) (by decide), map_trim_front between (by decide)]

/-! ### Lines -/

/-- A text without comment goes on with the text behind it. -/
theorem uncommented_append_of_eq (whole : uncommented front = front) (back : List Char) :
    uncommented (front ++ back) = front ++ uncommented back := by
  -- All of the text was taken, so that taking goes on behind it.
  have length := congrArg List.length whole
  rw [uncommented] at length
  rw [uncommented, List.takeWhile_append, if_pos length, ← uncommented]

/-- A comment goes on to the end of the line. -/
theorem uncommented_append_of_ne (cut : uncommented front ≠ front) (back : List Char) :
    uncommented (front ++ back) = uncommented front := by
  rw [uncommented] at cut
  rw [uncommented, List.takeWhile_append, if_neg, ← uncommented]
  -- A first part of the same length would be the whole text.
  intro length
  exact cut ((List.takeWhile_prefix _).eq_of_length length)

/-- No space begins a comment. -/
theorem uncommented_spaces {spaces : List Char} (blank : Spaces spaces) :
    uncommented spaces = spaces := by
  -- Neither kind of space begins a comment.
  have unmarked : ∀ char ∈ spaces, (char != ';' && char != '#') = true := by
    intro char member
    rcases blank char member with rfl | rfl
    · decide
    · decide
  rw [uncommented, ← List.append_nil spaces, List.takeWhile_append_of_pos unmarked,
    List.takeWhile_nil]

/-- Letters of either case begin no comment. -/
theorem uncommented_map_toUpper (line : List Char) :
    uncommented (line.map Char.toUpper) = (uncommented line).map Char.toUpper := by
  have same : (fun char => char != ';' && char != '#') ∘ Char.toUpper =
      fun char => char != ';' && char != '#' := by
    funext char
    by_cases short : char.toNat < 128
    · -- There are 128 characters to look at.
      exact of_sevenBit short (by decide +kernel)
    · simp only [Function.comp_apply, toUpper_of_wide short]
  rw [uncommented, List.takeWhile_map, same, ← uncommented]

/-- Spaces are blanks. -/
theorem Spaces.areBlank {spaces : List Char} (blank : Spaces spaces) : Blanks spaces := by
  intro char member
  rcases blank char member with rfl | rfl
  · decide
  · decide

/-- A respelled line says the same. -/
theorem parseLine_respelled (respelled : Respelled line other) :
    parseLine number other = parseLine number line := by
  -- A change leaves the text that is read, or puts blanks where they do not count.
  induction respelled with
  | cased same =>
    rename_i line other
    -- Both lines have the letters of one line in upper case.
    have upper (line : List Char) : upperText (uncommented line) =
        upperText (uncommented (line.map Char.toUpper)) := by
      rw [uncommented_map_toUpper, upperText_map_toUpper]
    rw [parseLine_eq, parseLine_eq, upper line, upper other, same]
  | spaced slack spaces =>
    rename_i front back blanks
    rw [parseLine_eq, parseLine_eq, List.append_assoc]
    by_cases whole : uncommented front = front
    · have blank := spaces.areBlank
      rw [uncommented_append_of_eq whole, uncommented_append_of_eq whole,
        uncommented_append_of_eq (uncommented_spaces spaces), upperText_append, upperText_append,
        upperText_append, upperText_blanks blank, ← List.append_assoc, slack.statement?_eq blank]
    · -- Nothing is changed but the comment.
      rw [uncommented_append_of_ne whole, uncommented_append_of_ne whole]
  | commented marks =>
    rename_i line comment mark
    rw [parseLine_eq, parseLine_eq]
    by_cases whole : uncommented line = line
    · have empty : uncommented (mark :: comment) = [] := by
        rcases marks with rfl | rfl
        · rfl
        · rfl
      rw [uncommented_append_of_eq whole, empty, List.append_nil, whole]
    · rw [uncommented_append_of_ne whole]
  | symm respelled ih => exact ih.symm
  | trans first second earlier later => exact later.trans earlier

/-- A source text whose lines are respelled has the same statements. -/
theorem parseLines_respelled {lines others : List (List Char)}
    (respelled : RespelledLines lines others) (number : Nat) :
    parseLines number others = parseLines number lines := by
  -- Lines keep their numbers.
  induction respelled generalizing number with
  | nil => rfl
  | cons first rest ih => rw [parseLines, parseLines, parseLine_respelled first, ih]

end Statement

/-! ### Source texts -/

open Statement

/--
Surface syntax does not matter.

A source text that is respelled line by line assembles to the same image at every origin, or fails
with the same error on the same line.
-/
theorem assemble_respelled {source other : List Char}
    (respelled : RespelledLines (splitAt '\n' source) (splitAt '\n' other)) (origin : Int) :
    assemble other origin = assemble source origin := by
  rw [assemble, assemble, parse, parse, parseLines_respelled respelled]

/-- A text with as few blanks as it can do with. -/
def terseSource : List Char :=
  "go:ld v0,5\njp go".toList

/-- The same text with blanks where there may be some, in another case and with a comment. -/
def looseSource : List Char :=
  "GO:\tLD V0 , 5;five\n  JP GO".toList

/-- Case, blanks and a comment leave the image as it is. -/
theorem assemble_respelled_loosely :
    assemble looseSource 512 = assemble terseSource 512 ∧
      assemble terseSource 512 = .ok [0x60, 0x05, 0x12, 0x00] := by
  have label : IsLabelName "GO".toList :=
    ⟨'G', ['O'], rfl, by decide, List.all_eq_true.mp (by decide)⟩
  have reaching (operands : List Char) : ReachesOperands ("GO:\tLD ".toList ++ operands) :=
    @ReachesOperands.operands "GO:\t".toList "LD".toList [' ']
      ⟨by decide, by simp [isBlank, blankCodes]⟩
      (@Heading.labelled _ [] "GO".toList ['\t'] (by decide) label (by decide))
      (by decide) (by decide) operands
  -- The first line differs in its case, in four blanks and in a comment.
  have first : Respelled "go:ld v0,5".toList "GO:\tLD V0 , 5;five".toList := by
    have cased : Respelled "go:ld v0,5".toList "GO:LD V0,5".toList := .cased (by decide)
    have colon : Respelled "GO:LD V0,5".toList "GO:\tLD V0,5".toList :=
      @Respelled.spaced "GO:".toList "LD V0,5".toList ['\t']
        (@Slack.colon [] "GO".toList [] _ (by decide) label (by decide)) (by decide)
    have before : Respelled "GO:\tLD V0,5".toList "GO:\tLD V0 ,5".toList :=
      @Respelled.spaced "GO:\tLD V0".toList ",5".toList [' ']
        (@Slack.beforeComma _ [] ['5'] (reaching "V0".toList) (by decide)) (by decide)
    have behind : Respelled "GO:\tLD V0 ,5".toList "GO:\tLD V0 , 5".toList :=
      @Respelled.spaced "GO:\tLD V0 ,".toList "5".toList [' ']
        (@Slack.afterComma _ [] ['5'] (reaching "V0 ".toList) (by decide)) (by decide)
    have comment : Respelled "GO:\tLD V0 , 5".toList "GO:\tLD V0 , 5;five".toList :=
      @Respelled.commented _ "five".toList ';' (.inl rfl)
    exact cased.trans (colon.trans (before.trans (behind.trans comment)))
  -- The second line differs in its case and in the blanks at its start.
  have second : Respelled "jp go".toList "  JP GO".toList := by
    have cased : Respelled "jp go".toList "JP GO".toList := .cased (by decide)
    have start : Respelled "JP GO".toList "  JP GO".toList :=
      @Respelled.spaced [] "JP GO".toList [' ', ' '] (.start (by decide)) (by decide)
    exact cased.trans start
  have lines : RespelledLines (splitAt '\n' terseSource) (splitAt '\n' looseSource) :=
    .cons first (.cons second .nil)
  exact ⟨assemble_respelled lines 512, by rfl⟩

end Chip8
