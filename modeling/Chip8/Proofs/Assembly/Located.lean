import Chip8.Proofs.Assembly.Image

/-!
Which statement an assembly error is about.

Each pass of the assembler refuses the first statement that has a fault, and a program without
faults is assembled.
-/

namespace Chip8

namespace Statement

/-- The address behind a statement that comes next at a given one. -/
def finishFrom (address : Int) (statement : Statement) : Int :=
  match statement.command with
  | none => address
  | some command => command.startFrom address + command.size

/-- The address behind statements, the first of which comes next at an origin. -/
def endOf (origin : Int) (statements : List Statement) : Int :=
  statements.foldl finishFrom origin

/-- The command of a statement, with the line that an error about it gives. -/
def said (statement : Statement) : Option (Nat × Command) :=
  statement.command.map fun command => (statement.line, command)

/-- A name is the label of one of some statements. -/
def Labelled (statements : List Statement) (name : List Char) : Prop :=
  ∃ statement ∈ statements, statement.label = some name

/-- Why a statement cannot be laid out behind others. -/
inductive LayoutFault (origin : Int) (front : List Statement) (statement : Statement) :
    AssemblyCause → Prop where
  /-- A statement before it has the same label. -/
  | duplicate {name : List Char} (labelled : statement.label = some name)
      (earlier : Labelled front name) : LayoutFault origin front statement (.duplicateLabel name)
  /-- Its label is new, but its command ends behind the end of memory. -/
  | overflow {command : Command} (present : statement.command = some command)
      (unique : ∀ name, statement.label = some name → ¬Labelled front name)
      (ends : memorySize < finishFrom (endOf origin front) statement) :
      LayoutFault origin front statement .memoryOverflow

/-- Why a statement has no bytes, whatever stands before it. -/
inductive EncodeFault (labels : Labels) (front : List Statement) (statement : Statement) :
    AssemblyCause → Prop where
  /-- Its command cannot be encoded. -/
  | unencodable {command : Command} {cause : AssemblyCause}
      (present : statement.command = some command)
      (refused : command.encode labels = .error cause) : EncodeFault labels front statement cause

/-- No statement has a fault behind those before it. -/
def Faultless (faulty : List Statement → Statement → AssemblyCause → Prop)
    (statements : List Statement) : Prop :=
  ∀ front statement behind, statements = front ++ statement :: behind →
    ∀ cause, ¬faulty front statement cause

end Statement

open Statement

/-- An error gives the line and the cause of the first statement that has a fault. -/
def AssemblyError.Locates (error : AssemblyError) (statements : List Statement)
    (faulty : List Statement → Statement → AssemblyCause → Prop) : Prop :=
  ∃ front statement behind, statements = front ++ statement :: behind ∧
    error.line = statement.line ∧ faulty front statement error.cause ∧ Faultless faulty front

/-- A pass over statements answers if none has a fault, and else locates the first that has one. -/
def Judges {α : Type} (answer : Except AssemblyError α) (statements : List Statement)
    (faulty : List Statement → Statement → AssemblyCause → Prop) : Prop :=
  match answer with
  | .ok _ => Faultless faulty statements
  | .error error => error.Locates statements faulty

variable {α : Type} {faulty : List Statement → Statement → AssemblyCause → Prop}
  {front rest : List Statement} {statement : Statement} {cause : AssemblyCause}

/-- Where nothing is said, nothing is wrong. -/
theorem Statement.faultless_nil : Faultless faulty [] := by
  intro front statement behind same
  exact absurd same.symm (by simp)

/-- A statement can be laid out if its label is new and its command ends within memory. -/
theorem Statement.no_layoutFault (origin : Int)
    (unique : ∀ name, statement.label = some name → ¬Labelled front name)
    (inside : ∀ command, statement.command = some command →
      finishFrom (endOf origin front) statement ≤ memorySize) :
    ∀ cause, ¬LayoutFault origin front statement cause := by
  -- Each kind of fault denies one of the two.
  intro cause fault
  cases fault with
  | duplicate labelled earlier => exact unique _ labelled earlier
  | overflow present _ ends => exact absurd ends (Int.not_lt.mpr (inside _ present))

/-- A statement without a fault can be put behind others. -/
theorem Statement.Faultless.snoc (before : Faultless faulty front)
    (here : ∀ cause, ¬faulty front statement cause) : Faultless faulty (front ++ [statement]) := by
  intro earlier other behind same
  -- The statement is the last one, or is among those before the last.
  rcases List.eq_nil_or_concat behind with rfl | ⟨others, last, rfl⟩
  · obtain ⟨rfl, single⟩ := List.append_inj' same rfl
    obtain rfl := List.singleton_inj.mp single
    exact here
  · rw [List.concat_eq_append, ← List.cons_append, ← List.append_assoc] at same
    exact before earlier other others (List.append_inj' same rfl).1

/-- A pass that stops at the first statement with a fault locates it. -/
theorem Judges.here (before : Faultless faulty front) (fault : faulty front statement cause) :
    Judges (.error ⟨statement.line, cause⟩ : Except AssemblyError α) (front ++ statement :: rest)
      faulty :=
  ⟨front, statement, rest, rfl, rfl, fault, before⟩

/-- A pass judges as its rest does if what it adds to an answer cannot fail. -/
theorem Judges.map {β : Type} {answer : Except AssemblyError α} {statements : List Statement}
    (judges : Judges answer statements faulty) (change : α → β) :
    Judges (answer.map change) statements faulty := by
  cases answer <;> exact judges

namespace Layout

variable {labels : Labels} {waiting next : List (List Char)} {address origin : Int}
  {error : AssemblyError} {name : List Char}

/-! ### The layout pass -/

/-- The names that have a value or wait for one are the labels of some statements. -/
def Knows (labels : Labels) (waiting : List (List Char)) (statements : List Statement) : Prop :=
  ∀ name, (labels.lookup name).isSome = true ∨ name ∈ waiting ↔ Labelled statements name

/-- A label is refused if it is known already. -/
theorem await_error (refused : await labels waiting statement = .error error) :
    ∃ name, statement.label = some name ∧
      ((labels.lookup name).isSome = true ∨ name ∈ waiting) ∧
      error = ⟨statement.line, .duplicateLabel name⟩ := by
  -- There is one way to refuse, and it names the label.
  unfold await at refused
  split at refused
  · cases refused
  · rename_i name labelled
    split at refused
    · rename_i known
      exact ⟨name, labelled, by simpa using known, (Except.error.inj refused).symm⟩
    · cases refused

/-- A label that is taken was not known. -/
theorem await_new (awaited : await labels waiting statement = .ok next)
    (labelled : statement.label = some name) :
    ¬((labels.lookup name).isSome = true ∨ name ∈ waiting) := by
  -- A known label would have been refused.
  simp only [await, labelled] at awaited
  split at awaited
  · cases awaited
  · rename_i unused
    simpa using unused

/-- Behind a statement its label is known too. -/
theorem Knows.await (known : Knows labels waiting front)
    (awaited : await labels waiting statement = .ok next) :
    Knows labels next (front ++ [statement]) := by
  -- A label that is taken waits.
  intro name
  rw [mem_await awaited, ← or_assoc, known name]
  simp [Labelled, or_and_right, exists_or]

/-- A name that gets its value is as well known as before. -/
theorem known_bindAll (labels : Labels) (waiting : List (List Char)) (start : Int)
    (name : List Char) :
    ((bindAll labels waiting start).lookup name).isSome = true ∨ name ∈ ([] : List (List Char)) ↔
      (labels.lookup name).isSome = true ∨ name ∈ waiting := by
  -- What waited has a value now, and nothing waits any longer.
  rw [lookup_bindAll]
  by_cases waits : name ∈ waiting <;> simp [waits]

/-- Labels that get a value stay known. -/
theorem Knows.bindAll (known : Knows labels waiting front) (start : Int) :
    Knows (bindAll labels waiting start) [] front := by
  intro name
  rw [← known name]
  exact known_bindAll labels waiting start name

/-- The layout pass judges the statements that are left, behind others without a fault. -/
theorem place_judges (known : Knows labels waiting front) (reached : endOf origin front = address)
    (before : Faultless (LayoutFault origin) front) :
    Judges (place labels waiting address rest) (front ++ rest) (LayoutFault origin) := by
  -- The first statement that is left either has a fault or joins those before it.
  induction rest generalizing labels waiting address front with
  | nil =>
    rw [List.append_nil]
    exact before
  | cons statement rest ih =>
    unfold place
    cases awaited : await labels waiting statement with
    | error error =>
      -- The label was used before, which is the fault of this statement.
      obtain ⟨name, labelled, used, rfl⟩ := await_error awaited
      exact .here before (.duplicate labelled ((known name).mp used))
    | ok next =>
      have unique : ∀ name, statement.label = some name → ¬Labelled front name := by
        intro name labelled
        rw [← known name]
        exact await_new awaited labelled
      have finish : endOf origin (front ++ [statement]) = finishFrom address statement := by
        rw [endOf, List.foldl_append, ← reached]
        rfl
      cases present : statement.command with
      | none =>
        have here := no_layoutFault origin unique fun command other => by simp [present] at other
        rw [finishFrom, present] at finish
        rw [List.append_cons]
        exact ih (known.await awaited) finish (before.snoc here)
      | some command =>
        rw [finishFrom, present] at finish
        simp only
        split
        · rename_i late
          -- The statement ends behind the memory.
          refine .here before (.overflow present unique ?_)
          rw [finishFrom, present, reached]
          exact late
        · rename_i inside
          have here := no_layoutFault origin unique fun _ _ => by
            rw [finishFrom, present, reached]
            exact Int.not_lt.mp inside
          rw [List.append_cons]
          exact (ih ((known.await awaited).bindAll _) finish (before.snoc here)).map _

/-- The layout of a program judges its statements. -/
theorem ofStatements_judges (statements : List Statement) (origin : Int) :
    Judges (ofStatements statements origin) statements (LayoutFault origin) := by
  -- Before the first statement no label is known.
  have known : Knows [] [] [] := by
    intro name
    simp [Labelled]
  exact place_judges known rfl faultless_nil

/-! ### The encoding pass -/

/-- The commands are placed with the lines of their statements. -/
theorem place_said {layout : Layout} (done : place labels waiting address rest = .ok layout) :
    layout.placed.map (fun entry => (entry.line, entry.command)) =
      rest.filterMap Statement.said := by
  -- A statement adds its command, if it has one, and nothing else.
  induction rest generalizing labels waiting address layout with
  | nil =>
    obtain rfl := Except.ok.inj done
    rfl
  | cons statement rest ih =>
    obtain ⟨next, -, ⟨absent, laid⟩ | ⟨command, entry, inner, present, rfl, -, laid, rfl⟩⟩ :=
      place_cons_eq_ok done
    · rw [List.filterMap_cons_none (by rw [Statement.said, absent]; rfl)]
      exact ih laid
    · rw [List.filterMap_cons_some (by rw [Statement.said, present]; rfl), List.map_cons, ih laid]

/-- The encoding pass judges the statements that are left, behind others without a fault. -/
theorem emit_judges {position : Int} {placed : List Placed}
    (said : placed.map (fun entry => (entry.line, entry.command)) =
      rest.filterMap Statement.said)
    (before : Faultless (EncodeFault labels) front) :
    Judges (emit labels position placed) (front ++ rest) (EncodeFault labels) := by
  -- The first statement that is left is about the first entry, or about none.
  induction rest generalizing position placed front with
  | nil =>
    obtain rfl := List.map_eq_nil_iff.mp said
    rw [List.append_nil]
    exact before
  | cons statement rest ih =>
    cases present : statement.command with
    | none =>
      -- A statement without a command cannot have this fault.
      have here : ∀ cause, ¬EncodeFault labels front statement cause := by
        intro cause fault
        cases fault with
        | unencodable other => rw [present] at other; cases other
      rw [List.filterMap_cons_none (by rw [Statement.said, present]; rfl)] at said
      rw [List.append_cons]
      exact ih said (before.snoc here)
    | some command =>
      rw [List.filterMap_cons_some (by rw [Statement.said, present]; rfl)] at said
      -- The first entry is the one of this statement.
      obtain ⟨entry, others, rfl, same, behind⟩ := List.map_eq_cons_iff.mp said
      obtain ⟨line, own⟩ := Prod.mk.inj same
      rw [emit, own]
      cases encoded : command.encode labels with
      | error cause =>
        simp only [line]
        exact .here before (.unencodable present encoded)
      | ok bytes =>
        have here : ∀ cause, ¬EncodeFault labels front statement cause := by
          intro cause fault
          cases fault with
          | unencodable other refused =>
            rw [present, Option.some.injEq] at other
            rw [← other, encoded] at refused
            cases refused
        rw [List.append_cons]
        exact (ih behind (before.snoc here)).map _

/-- The bytes before a command never reach beyond its address, so no gap is negative. -/
theorem emit_front {placed : List Placed} {index : Nat} {entry : Placed} {image : List Byte}
    (consecutive : Consecutive origin placed) (found : placed[index]? = some entry)
    (done : emit labels origin (placed.take index) = .ok image) :
    origin + image.length ≤ entry.address := by
  -- The image of the commands before it ends where the layout says.
  rw [emit_length (consecutive.take index) done, (consecutive.start found).1]
  exact le_startFrom _ _

end Layout

end Chip8
