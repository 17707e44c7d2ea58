import Chip8.Assembly.Image
import Chip8.Proofs.Text.Blank

/-!
Labels as operands.

No label is written like a number, so an operand that names a label has the label's value.
-/

namespace Chip8

/-! ### Names -/

/-- A character that may begin a label is an underscore, or no decimal digit of any script. -/
theorem isLabelStart_cases {char : Char} (start : Statement.isLabelStart char = true) :
    char = '_' ∨ (char ≠ '0' ∧ char ≠ '-' ∧ char ≠ '+' ∧ digitValue? 10 char = none) := by
  simp only [Statement.isLabelStart, Bool.or_eq_true, Bool.and_eq_true, decide_eq_true_eq,
    beq_iff_eq] at start
  rcases start with (⟨low, high⟩ | rfl) | rfl
  · -- There are 26 letters to look at.
    have table : ∀ letter : Fin 26, Char.ofNat (65 + letter) ≠ '0' ∧
        Char.ofNat (65 + letter) ≠ '-' ∧ Char.ofNat (65 + letter) ≠ '+' ∧
          digitValue? 10 (Char.ofNat (65 + letter)) = none := by decide
    have first : 65 ≤ char.toNat := low
    have last : char.toNat ≤ 90 := high
    have same : Char.ofNat (65 + (char.toNat - 65)) = char := by
      rw [Nat.add_sub_cancel' first, Char.ofNat_toNat]
    have found := table ⟨char.toNat - 65, by omega⟩
    simp only [same] at found
    exact .inr found
  · exact .inl rfl
  · exact .inr (by decide)

/-- A text that begins like a label has no digits. -/
theorem digits?_of_isLabelStart {first : Char} {rest : List Char}
    (start : Statement.isLabelStart first = true) : digits? 10 (first :: rest) = none := by
  -- Decimal digits are read in groups between underscores, and the first group fails.
  rcases isLabelStart_cases start with rfl | ⟨-, -, -, digit⟩
  · -- The group in front of the underscore is empty.
    simp [digits?, splitAt]
  · by_cases separator : first = '_'
    · simp [digits?, splitAt, separator]
    · -- The first group begins with the character.
      obtain ⟨piece, pieces, groups⟩ : ∃ piece pieces,
          splitAt '_' (first :: rest) = (first :: piece) :: pieces := by
        simp only [splitAt, if_neg separator]
        split
        · exact ⟨[], [], rfl⟩
        · exact ⟨_, _, rfl⟩
      simp only [digits?, groups]
      split
      · rfl
      · simp [digit]

/-- A text that begins like a label is no number. -/
theorem number?_of_isLabelStart {first : Char} {rest : List Char}
    (start : Statement.isLabelStart first = true) : Operand.number? (first :: rest) = none := by
  -- There is neither a sign nor a base mark to skip, which leaves decimal digits to read.
  have signless : splitSign (first :: rest) = (1, first :: rest) := by
    rcases isLabelStart_cases start with rfl | ⟨-, minus, plus, -⟩
    · rfl
    · simp [splitSign, minus, plus]
  have decimal : decimalInteger? (first :: rest) = none := by
    simp only [decimalInteger?, signless, digits?_of_isLabelStart start]
  have zero : first ≠ '0' := by
    rintro rfl
    simp [Statement.isLabelStart] at start
  unfold Operand.number?
  split
  · rename_i same
    exact absurd (List.cons.inj same).1 zero
  · rename_i same
    exact absurd (List.cons.inj same).1 zero
  · exact decimal

namespace Statement

/-- The label of a line begins like one. -/
theorem splitLabel_start {line name : List Char} (labelled : (splitLabel line).1 = some name) :
    ∃ first tail, name = first :: tail ∧ isLabelStart first = true := by
  -- A label is split off only behind the test of its first character.
  unfold splitLabel at labelled
  split at labelled
  · cases labelled
  · split at labelled
    · split at labelled
      · rename_i start
        exact ⟨_, _, (Option.some.inj labelled).symm, start⟩
      · cases labelled
    · cases labelled

/-- The label of a statement in a source text begins like one. -/
theorem parse_label {source name : List Char} {statement : Statement}
    (listed : statement ∈ parse source) (labelled : statement.label = some name) :
    ∃ first tail, name = first :: tail ∧ isLabelStart first = true := by
  -- The statement comes from one of the lines, and has that line's label.
  have lines (number : Nat) (lines : List (List Char))
      (listed : statement ∈ parseLines number lines) :
      ∃ first tail, name = first :: tail ∧ isLabelStart first = true := by
    induction lines generalizing number with
    | nil => exact absurd listed List.not_mem_nil
    | cons line rest ih =>
      rw [parseLines, List.mem_append] at listed
      rcases listed with here | later
      · rw [Option.mem_toList] at here
        unfold parseLine at here
        simp only at here
        split at here
        · cases here
        · obtain rfl := Option.some.inj here
          exact splitLabel_start labelled
      · exact ih (number + 1) later
  exact lines 1 _ listed

end Statement

/-! ### Operands -/

/-- An operand that begins like a label has the value of the label. -/
theorem integer_of_lookup {labels : Labels} {name : List Char} {address : Int}
    (named : ∃ first tail, name = first :: tail ∧ Statement.isLabelStart first = true)
    (known : labels.lookup name = some address) : Operand.integer labels name = .ok address := by
  -- Numbers are tried first, and a name is none.
  obtain ⟨first, tail, rfl, start⟩ := named
  simp only [Operand.integer, number?_of_isLabelStart start, known]

/-- An operand has its value as a number, or as a label. -/
theorem integer_eq_ok {labels : Labels} {operand : List Char} {value : Int}
    (done : Operand.integer labels operand = .ok value) :
    Operand.number? operand = some value ∨
      Operand.number? operand = none ∧ labels.lookup operand = some value := by
  -- Labels are tried only behind numbers.
  unfold Operand.integer at done
  split at done
  · rename_i number read
    exact .inl (Except.ok.inj done ▸ read)
  · rename_i unread
    split at done
    · rename_i address known
      exact .inr ⟨unread, Except.ok.inj done ▸ known⟩
    · cases done

end Chip8
