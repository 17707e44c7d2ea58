import Chip8.Text.Blank

/-! Text that was joined is cut into its pieces again, and text with visible ends is not trimmed. -/

namespace Chip8

/-- The pieces are those of the core library's split. -/
theorem splitAt_eq_splitOn (separator : Char) (text : List Char) :
    splitAt separator text = text.splitOn separator := by
  -- A character is a separator, or belongs to the first of the pieces behind it.
  induction text with
  | nil => simp [splitAt]
  | cons char rest ih =>
    rw [splitAt, ih, List.splitOn_cons_eq_if_modifyHead]
    by_cases here : char = separator
    · simp [here]
    · rw [if_neg here, if_neg (by simpa using here)]
      cases pieces : rest.splitOn separator with
      | nil => exact absurd pieces (List.splitOn_ne_nil separator rest)
      | cons piece others => rfl

/-- A text without separator is one piece. -/
theorem splitAt_of_not_mem {separator : Char} {text : List Char} (absent : separator ∉ text) :
    splitAt separator text = [text] := by
  -- The library says the same of its split.
  rw [splitAt_eq_splitOn]
  exact List.splitOn_eq_singleton absent

/-- Pieces that were joined by a separator are found again. -/
theorem splitAt_intercalate {separator : Char} {pieces : List (List Char)}
    (absent : ∀ piece ∈ pieces, separator ∉ piece) (filled : pieces ≠ []) :
    splitAt separator (List.intercalate [separator] pieces) = pieces := by
  -- The library says the same of its split.
  rw [splitAt_eq_splitOn]
  exact List.splitOn_intercalate separator absent filled

/-- A character of joined texts stands in what was put between them, or in one of them. -/
theorem mem_intercalate {between : List Char} {texts : List (List Char)} {char : Char}
    (member : char ∈ List.intercalate between texts) :
    char ∈ between ∨ ∃ text ∈ texts, char ∈ text := by
  -- The first text and what is behind it stand before the joined others.
  induction texts with
  | nil => simp at member
  | cons first rest ih =>
    cases rest with
    | nil => exact .inr ⟨first, List.mem_cons_self, by simpa using member⟩
    | cons second others =>
      rw [List.intercalate_cons_cons, List.mem_append, List.mem_append] at member
      rcases member with (inside | put) | later
      · exact .inr ⟨first, List.mem_cons_self, inside⟩
      · exact .inl put
      · rcases ih later with put | ⟨text, listed, inside⟩
        · exact .inl put
        · exact .inr ⟨text, List.mem_cons_of_mem _ listed, inside⟩

/-- A separator between two texts ends the last piece of the first, and begins the second. -/
theorem splitAt_append (separator : Char) (first second : List Char) :
    splitAt separator (first ++ separator :: second) =
      splitAt separator first ++ splitAt separator second := by
  induction first with
  | nil => simp [splitAt]
  | cons char rest ih =>
    simp only [List.cons_append, splitAt, ih]
    split
    · rfl
    · -- The character joins the first piece, of which there is one at least.
      cases pieces : splitAt separator rest with
      | nil => exact absurd pieces (splitAt_ne_nil separator rest)
      | cons piece others => rfl

/-- A text whose first character is not blank keeps its start. -/
theorem trimStart_cons {char : Char} {rest : List Char} (visible : isBlank char = false) :
    trimStart (char :: rest) = char :: rest := by
  -- Nothing is dropped before a visible character.
  simp [trimStart, visible]

/-- A text that ends with a character that is not blank keeps its end. -/
theorem trimEnd_of_getLast? {text : List Char} {char : Char} (last : text.getLast? = some char)
    (visible : isBlank char = false) : trimEnd text = text := by
  -- Seen from its end, the text begins with the visible character.
  obtain ⟨start, rfl⟩ := List.getLast?_eq_some_iff.mp last
  simp [trimEnd, visible]

/-- A text with no blank at either end is not trimmed. -/
theorem trim_cons {first last : Char} {rest : List Char} (start : isBlank first = false)
    (ends : (first :: rest).getLast? = some last) (visible : isBlank last = false) :
    trim (first :: rest) = first :: rest := by
  -- The start is kept first, and the end of what is kept is the same.
  rw [trim, trimStart_cons start, trimEnd_of_getLast? ends visible]

/-- A text without blanks is not trimmed. -/
theorem trim_of_visible {text : List Char} (visible : ∀ char ∈ text, isBlank char = false) :
    trim text = text := by
  -- Its first and its last character are visible, unless there are none.
  cases text with
  | nil => rfl
  | cons first rest =>
    have ends := List.getLast?_eq_some_getLast (List.cons_ne_nil first rest)
    exact trim_cons (visible first (List.mem_cons_self ..)) ends
      (visible _ (List.getLast_mem _))

/-- A blank in front of a text is trimmed. -/
theorem trim_blank (text : List Char) : trim (' ' :: text) = trim text := by
  -- The blank is dropped before the rest is looked at.
  have blank : isBlank ' ' = true := by decide
  simp [trim, trimStart, blank]

/-- What can be read off a table of 128 characters holds of every seven-bit character. -/
@[elab_as_elim]
theorem of_sevenBit {motive : Char → Prop} {char : Char} (short : char.toNat < 128)
    (table : ∀ code : Fin 128, motive (Char.ofNat code)) : motive char := by
  have found := table ⟨char.toNat, short⟩
  simp only [Char.ofNat_toNat] at found
  exact found

/-! ### Blanks at the ends -/

/-- Text of blanks only. -/
def Blanks (text : List Char) : Prop :=
  ∀ char ∈ text, isBlank char = true

instance (text : List Char) : Decidable (Blanks text) :=
  List.decidableBAll _ text

/-- A text that has visible characters only, and some. -/
structure IsWord (text : List Char) : Prop where
  /-- There is a character. -/
  filled : text ≠ []
  /-- No character is blank. -/
  visible : ∀ char ∈ text, isBlank char = false

section Ends

variable {blanks word : List Char} {separator : Char}

/-- A text that begins with a word is not empty. -/
theorem IsWord.isEmpty_append (solid : IsWord word) (text : List Char) :
    (word ++ text).isEmpty = false := by
  simp [solid.filled]

/-- A mark that is visible is not among blanks. -/
theorem Blanks.not_mem (blank : Blanks blanks) (visible : isBlank separator = false) :
    separator ∉ blanks := by
  intro member
  rw [blank separator member] at visible
  cases visible

/-- Blanks behind blanks are blanks still. -/
theorem Blanks.append {others : List Char} (first : Blanks blanks) (second : Blanks others) :
    Blanks (blanks ++ others) := by
  intro char member
  rcases List.mem_append.mp member with before | behind
  · exact first char before
  · exact second char behind

/-- Blanks in front of a text are dropped with its start. -/
theorem trimStart_blanks (blank : Blanks blanks) (text : List Char) :
    trimStart (blanks ++ text) = trimStart text :=
  List.dropWhile_append_of_pos blank

/-- Blanks behind a text are dropped with its end. -/
theorem trimEnd_blanks (blank : Blanks blanks) (text : List Char) :
    trimEnd (text ++ blanks) = trimEnd text := by
  -- Seen from the end, the blanks come first.
  have turned : ∀ char ∈ blanks.reverse, isBlank char = true := by
    intro char member
    exact blank char (List.mem_reverse.mp member)
  rw [trimEnd, List.reverse_append, List.dropWhile_append_of_pos turned, ← trimEnd]

/-- What is dropped from the start of a text is blank. -/
theorem exists_trimStart (text : List Char) :
    ∃ blanks, Blanks blanks ∧ text = blanks ++ trimStart text :=
  ⟨text.takeWhile isBlank, List.all_eq_true.mp List.all_takeWhile,
    List.takeWhile_append_dropWhile.symm⟩

/-- What is dropped from the end of a text is blank. -/
theorem exists_trimEnd (text : List Char) :
    ∃ blanks, Blanks blanks ∧ text = trimEnd text ++ blanks := by
  -- The end of a text is the start of the text read backwards.
  obtain ⟨blanks, blank, same⟩ := exists_trimStart text.reverse
  refine ⟨blanks.reverse, ?_, ?_⟩
  · intro char member
    exact blank char (List.mem_reverse.mp member)
  · rw [trimEnd, ← trimStart, ← List.reverse_append, ← same, List.reverse_reverse]

/-- Blanks in front of a text are trimmed. -/
theorem trim_blanks_append (blank : Blanks blanks) (text : List Char) :
    trim (blanks ++ text) = trim text := by
  rw [trim, trimStart_blanks blank, ← trim]

/-- Blanks behind a text are trimmed. -/
theorem trim_append_blanks (blank : Blanks blanks) (text : List Char) :
    trim (text ++ blanks) = trim text := by
  rw [trim, trim, trimStart, List.dropWhile_append]
  split
  · -- The text has blanks only, and nothing is left of either.
    rename_i empty
    have none : trimStart text = [] := List.isEmpty_iff.mp empty
    rw [none, ← trimStart, ← List.append_nil blanks, trimStart_blanks blank]
    rfl
  · exact trimEnd_blanks blank _

/-- The end of a text is trimmed once. -/
theorem trim_trimEnd (text : List Char) : trim (trimEnd text) = trim text := by
  obtain ⟨blanks, blank, same⟩ := exists_trimEnd text
  conv => rhs; rw [same, trim_append_blanks blank]

/-- Of a text that begins with a word, the end behind the word is trimmed. -/
theorem IsWord.trim_append (solid : IsWord word) (text : List Char) :
    trim (word ++ text) = word ++ trimEnd text := by
  have start : trimStart (word ++ text) = word ++ text := by
    obtain ⟨first, rest, rfl⟩ := List.exists_cons_of_ne_nil solid.filled
    exact trimStart_cons (solid.visible first List.mem_cons_self)
  -- Seen from the end, the word stops the dropping, whatever was dropped before.
  have turned : word.reverse.dropWhile isBlank = word.reverse := by
    have kept := trimEnd_of_getLast? (List.getLast?_eq_some_getLast solid.filled)
      (solid.visible _ (List.getLast_mem _))
    rw [← List.reverse_reverse (List.dropWhile isBlank _), ← trimEnd, kept]
  rw [trim, start, trimEnd, List.reverse_append, List.dropWhile_append]
  split
  · -- All of the text behind the word is blank.
    rename_i empty
    rw [turned, List.reverse_reverse, trimEnd, List.isEmpty_iff.mp empty]
    simp
  · rw [List.reverse_append, List.reverse_reverse, ← trimEnd]

/-- A text without separator in front joins the first piece. -/
theorem splitAt_front (separator : Char) (text : List Char) :
    ∃ first pieces, splitAt separator text = first :: pieces ∧
      ∀ front, separator ∉ front →
        splitAt separator (front ++ text) = (front ++ first) :: pieces := by
  obtain ⟨first, pieces, same⟩ := List.exists_cons_of_ne_nil (splitAt_ne_nil separator text)
  refine ⟨first, pieces, same, ?_⟩
  intro front absent
  -- From its end on, every character of the text in front joins the piece behind it.
  induction front with
  | nil => exact same
  | cons char rest ih =>
    obtain ⟨other, later⟩ := List.ne_and_not_mem_of_not_mem_cons absent
    rw [List.cons_append, splitAt, if_neg (Ne.symm other), ih later]
    rfl

/-- A text without separator behind joins the last piece. -/
theorem splitAt_back (separator : Char) (text : List Char) :
    ∃ pieces last, splitAt separator text = pieces ++ [last] ∧
      ∀ back, separator ∉ back →
        splitAt separator (text ++ back) = pieces ++ [last ++ back] := by
  -- A separator begins a piece, which is not the last one.
  induction text with
  | nil => exact ⟨[], [], rfl, fun back absent => splitAt_of_not_mem absent⟩
  | cons char rest ih =>
    obtain ⟨pieces, last, same, joined⟩ := ih
    by_cases here : char = separator
    · refine ⟨[] :: pieces, last, ?_, ?_⟩
      · rw [splitAt, if_pos here, same, List.cons_append]
      · intro back absent
        rw [List.cons_append, splitAt, if_pos here, joined back absent, List.cons_append]
    · -- The character joins the first piece, which may be the last one, too.
      cases pieces with
      | nil =>
        refine ⟨[], char :: last, ?_, ?_⟩
        · rw [splitAt, if_neg here, same]
          rfl
        · intro back absent
          rw [List.cons_append, splitAt, if_neg here, joined back absent]
          rfl
      | cons piece others =>
        refine ⟨(char :: piece) :: others, last, ?_, ?_⟩
        · rw [splitAt, if_neg here, same]
          rfl
        · intro back absent
          rw [List.cons_append, splitAt, if_neg here, joined back absent]
          rfl

/-- Blanks in front of a list do not change its trimmed pieces. -/
theorem map_trim_front (blank : Blanks blanks) (visible : isBlank separator = false)
    (text : List Char) :
    (splitAt separator (blanks ++ text)).map trim = (splitAt separator text).map trim := by
  obtain ⟨first, pieces, same, joined⟩ := splitAt_front separator text
  rw [same, joined blanks (blank.not_mem visible), List.map_cons, List.map_cons,
    trim_blanks_append blank]

/-- Blanks behind a list do not change its trimmed pieces. -/
theorem map_trim_back (blank : Blanks blanks) (visible : isBlank separator = false)
    (text : List Char) :
    (splitAt separator (text ++ blanks)).map trim = (splitAt separator text).map trim := by
  obtain ⟨pieces, last, same, joined⟩ := splitAt_back separator text
  rw [same, joined blanks (blank.not_mem visible), List.map_append, List.map_append,
    List.map_singleton, List.map_singleton, trim_append_blanks blank]

end Ends

end Chip8
