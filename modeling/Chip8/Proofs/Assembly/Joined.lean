import Chip8.Proofs.Assembly.Agreement
import Chip8.Proofs.Assembly.Label
import Chip8.Proofs.Assembly.Located
import Chip8.Proofs.Assembly.Source
import Chip8.Proofs.Text.Blank

/-!
Source texts that are assembled in one piece.

Two texts one behind the other have their images one behind the other, since nothing but the
address at which the first one ends is handed on to the second.
-/

namespace Chip8

/-! ### Texts in a row -/

namespace Statement

/-- A statement that stands some lines further down. -/
def moved (distance : Nat) (statement : Statement) : Statement :=
  { statement with line := statement.line + distance }

/-- A line that stands further down says the same there. -/
theorem parseLine_moved (number distance : Nat) (line : List Char) :
    parseLine (number + distance) line = (parseLine number line).map (moved distance) := by
  -- The number is only handed through.
  unfold parseLine
  simp only
  split
  · rfl
  · rfl

/-- Lines that stand further down say the same there. -/
theorem parseLines_moved (number distance : Nat) (lines : List (List Char)) :
    parseLines (number + distance) lines = (parseLines number lines).map (moved distance) := by
  -- Each line is parsed under its own number, and nothing else of it is looked at.
  induction lines generalizing number with
  | nil => rfl
  | cons line rest ih =>
    have next : number + distance + 1 = number + 1 + distance := by omega
    rw [parseLines, parseLines, parseLine_moved, next, ih, List.map_append]
    refine congrArg (· ++ _) ?_
    cases parseLine number line <;> rfl

/-- Lines in a row are read one list after the other. -/
theorem parseLines_append (number : Nat) (first second : List (List Char)) :
    parseLines number (first ++ second) =
      parseLines number first ++ parseLines (number + first.length) second := by
  -- The lines of the second text are numbered on from those of the first.
  induction first generalizing number with
  | nil => rfl
  | cons line rest ih =>
    have next : number + 1 + rest.length = number + (rest.length + 1) := by omega
    rw [List.cons_append, parseLines, ih, next, parseLines, List.append_assoc, List.length_cons]

/-- Two texts on lines of their own say what each of them says, the second one further down. -/
theorem parse_join (first second : List Char) :
    parse (first ++ '\n' :: second) =
      parse first ++ (parse second).map (moved (splitAt '\n' first).length) := by
  rw [parse, splitAt_append, parseLines_append, parseLines_moved]
  rfl

end Statement

/-! ### Larger label tables -/

/-- Every operand that has a value with some labels has the same value with others. -/
def Labels.Extended (labels others : Labels) : Prop :=
  ∀ operand value, Operand.integer labels operand = .ok value →
    Operand.integer others operand = .ok value

/-- Answers to a list stay what they are where each of them stays what it is. -/
theorem mapM_extend {ε α β : Type} {function other : α → Except ε β} {inputs : List α}
    {outputs : List β} (same : ∀ input output, function input = .ok output →
      other input = .ok output) (done : inputs.mapM function = .ok outputs) :
    inputs.mapM other = .ok outputs := by
  -- An answer in the list is an answer of the function, input by input.
  induction inputs generalizing outputs with
  | nil => exact done
  | cons first rest ih =>
    rw [List.mapM_cons] at done ⊢
    obtain ⟨output, answered, done⟩ := bind_eq_ok.mp done
    obtain ⟨others, behind, done⟩ := bind_eq_ok.mp done
    rw [same first output answered, ok_bind, ih behind, ok_bind]
    exact done

section Extended

variable {labels others : Labels} (extended : labels.Extended others)

include extended

/-- A value that an operand has for a field is kept with more labels. -/
theorem Operand.value_extend {operand : List Char} {bits : Nat} {field : Fin (1 <<< bits)}
    (done : value labels operand bits = .ok field) : value others operand bits = .ok field :=
  value_eq_ok.mpr (extended _ _ (value_eq_ok.mp done))

/-- A field that is read from an operand is read with more labels as well. -/
theorem Slot.Reads.extend {slot : Slot} {word : Word} {operand : List Char}
    (reads : slot.Reads labels word operand) : slot.Reads others word operand := by
  -- Only places for values look at the labels.
  cases slot with
  | name text => exact reads
  | x => exact reads
  | y => exact reads
  | address => exact extended _ _ reads
  | byte => exact extended _ _ reads
  | nibble => exact extended _ _ reads

/-- A word that is written with some labels is written with more labels as well. -/
theorem Mnemonic.word_extend {mnemonic : Mnemonic} {operands : List (List Char)} {word : Word}
    (done : mnemonic.word labels operands = .ok word) :
    mnemonic.word others operands = .ok word := by
  by_cases data : mnemonic = .dw
  · -- A data word is its operand.
    subst data
    match operands with
    | [] => cases done
    | [first] => exact Operand.value_extend extended done
    | first :: second :: rest => cases done
  · obtain ⟨form, found, spells⟩ := (Mnemonic.word_eq_ok data).mp done
    have reads : ∀ pair ∈ form.slots.zip operands, pair.1.Reads others word pair.2 :=
      fun pair listed => (spells.reads pair listed).extend extended
    exact (Mnemonic.word_eq_ok data).mpr ⟨form, found, spells.count, reads, spells.digits⟩

/-- A command that is encoded with some labels is encoded with more labels as well. -/
theorem Command.encode_extend {command : Command} {bytes : List Byte}
    (done : command.encode labels = .ok bytes) : command.encode others = .ok bytes := by
  -- A table that is extended has all the labels that were looked up.
  unfold encode at done ⊢
  split at done
  · rename_i data
    rw [if_pos data]
    split at done
    · cases done
    · rename_i filled
      rw [if_neg filled]
      exact mapM_extend (fun _ _ => Operand.value_extend extended) done
  · rename_i code
    rw [if_neg code]
    cases named : Mnemonic.ofText? command.mnemonic with
    -- A mnemonic is known by its name, whatever labels there are.
    | none =>
      rw [named] at done
      cases done
    | some mnemonic =>
      rw [named] at done
      obtain ⟨word, written, rfl⟩ := map_eq_ok.mp done
      exact map_eq_ok.mpr ⟨word, Mnemonic.word_extend extended written, rfl⟩

end Extended

/-! ### Layouts in a row -/

/-- A placed command of a line that stands further down. -/
def Placed.moved (distance : Nat) (placed : Placed) : Placed :=
  { placed with line := placed.line + distance }

namespace Layout

open Statement

variable {labels others : Labels} {waiting pending next : List (List Char)} {address : Int}
  {statement : Statement} {command : Command} {before front back : List Statement}
  {layout : Layout}

/-- A statement without a command leaves only its label to those behind it. -/
theorem place_uncommanded (awaited : await labels waiting statement = .ok next)
    (absent : statement.command = none) (rest : List Statement) :
    place labels waiting address (statement :: rest) = place labels next address rest := by
  simp only [place, awaited, absent]

/-- A command that ends within memory is placed in front of those behind it. -/
theorem place_commanded (awaited : await labels waiting statement = .ok next)
    (present : statement.command = some command)
    (inside : command.startFrom address + command.size ≤ memorySize) (rest : List Statement) :
    place labels waiting address (statement :: rest) =
      (place (bindAll labels next (command.startFrom address)) []
        (command.startFrom address + command.size) rest).map fun layout =>
          ⟨layout.labels, ⟨statement.line, command.startFrom address, command⟩ :: layout.placed⟩ :=
    by
  have fits : ¬(memorySize : Int) < command.startFrom address + command.size :=
    Int.not_lt.mpr inside
  simp only [place, awaited, present, if_neg fits]

/-- Statements behind others are laid out with what those leave: labels and an address. -/
theorem place_append (known : Knows labels waiting before)
    (done : place labels waiting address front = .ok layout) :
    ∃ bound left, Knows bound left (before ++ front) ∧ ∀ rest,
      place labels waiting address (front ++ rest) =
        (place bound left (finish address layout.placed) rest).map fun later =>
          ⟨later.labels, layout.placed ++ later.placed⟩ := by
  -- Along the first statements, whose labels may wait for the first command of the others.
  induction front generalizing labels waiting address before layout with
  | nil =>
    obtain rfl := Except.ok.inj done
    refine ⟨labels, waiting, ?_, ?_⟩
    · rwa [List.append_nil]
    · intro rest
      simp only [List.nil_append, finish]
      cases place labels waiting address rest <;> rfl
  | cons statement rest ih =>
    obtain ⟨next, awaited, outcome⟩ := place_cons_eq_ok done
    rcases outcome with ⟨absent, laid⟩ | ⟨command, entry, inner, present, rfl, inside, laid, rfl⟩
    · -- A statement without a command leaves its labels waiting.
      obtain ⟨bound, left, knows, behind⟩ := ih (known.await awaited) laid
      refine ⟨bound, left, ?_, ?_⟩
      · rwa [List.append_cons]
      · intro later
        rw [List.cons_append, place_uncommanded awaited absent, behind]
    · -- A command binds the labels that wait, and its entry comes first in both layouts.
      obtain ⟨bound, left, knows, behind⟩ := ih ((known.await awaited).bindAll _) laid
      refine ⟨bound, left, ?_, ?_⟩
      · rwa [List.append_cons]
      · intro later
        rw [List.cons_append, place_commanded awaited present inside]
        have behind := behind later
        simp only [Placed.finish] at behind
        rw [behind]
        simp only [finish, Placed.finish]
        cases place bound left _ later <;> rfl

/-- A label that is not known yet can be taken. -/
theorem await_of_new (new : ∀ name, statement.label = some name →
    ¬((labels.lookup name).isSome = true ∨ name ∈ waiting)) :
    ∃ next, await labels waiting statement = .ok next := by
  cases awaited : await labels waiting statement with
  | ok next => exact ⟨next, rfl⟩
  | error refusal =>
    -- A label is refused only if it is known.
    obtain ⟨name, labelled, known, -⟩ := await_error awaited
    exact absurd known (new name labelled)

/-- Statements that can be laid out can be laid out with other labels that are not theirs. -/
theorem place_moved (distance : Nat)
    (apart : ∀ name, Labelled back name → (others.lookup name).isSome = true ∨ name ∈ pending →
      (labels.lookup name).isSome = true ∨ name ∈ waiting)
    (done : place labels waiting address back = .ok layout) :
    ∃ later, place others pending address (back.map (Statement.moved distance)) = .ok later ∧
      later.placed = layout.placed.map (Placed.moved distance) := by
  induction back generalizing labels waiting others pending address layout with
  | nil =>
    obtain rfl := Except.ok.inj done
    exact ⟨_, rfl, rfl⟩
  | cons statement rest ih =>
    obtain ⟨next, awaited, outcome⟩ := place_cons_eq_ok done
    -- The label is new with the other labels, or it would have been refused with these.
    have new : ∀ name, (statement.moved distance).label = some name →
        ¬((others.lookup name).isSome = true ∨ name ∈ pending) := by
      intro name labelled known
      exact await_new awaited labelled
        (apart name ⟨statement, List.mem_cons_self, labelled⟩ known)
    -- So the statement waits with the others too, and both go on with what they know.
    obtain ⟨further, taken⟩ := await_of_new new
    have apartNext : ∀ name, Labelled rest name →
        (others.lookup name).isSome = true ∨ name ∈ further →
          (labels.lookup name).isSome = true ∨ name ∈ next := by
      intro name behind known
      rw [mem_await taken, ← or_assoc] at known
      rw [mem_await awaited, ← or_assoc]
      refine known.imp_left (apart name ?_)
      obtain ⟨other, listed, labelled⟩ := behind
      exact ⟨other, List.mem_cons_of_mem _ listed, labelled⟩
    rw [List.map_cons]
    rcases outcome with ⟨absent, laid⟩ | ⟨command, entry, inner, present, rfl, inside, laid, rfl⟩
    · rw [place_uncommanded taken absent]
      exact ih apartNext laid
    · rw [place_commanded taken present inside]
      -- Whatever waits has a value behind the command.
      have apartBound : ∀ name, Labelled rest name →
          ((bindAll others further (command.startFrom address)).lookup name).isSome = true ∨
            name ∈ [] →
          ((bindAll labels next (command.startFrom address)).lookup name).isSome = true ∨
            name ∈ [] := by
        intro name behind known
        rw [known_bindAll] at known ⊢
        exact apartNext name behind known
      obtain ⟨later, placed, same⟩ := ih apartBound laid
      simp only [Placed.finish] at placed
      rw [placed, List.map_cons]
      exact ⟨_, rfl, List.cons_eq_cons.mpr ⟨rfl, same⟩⟩

/-! ### Places of labels -/

variable {origin : Int} {first second : List Placed} {index : Nat}

/-- Commands in a row end where the last of them ends. -/
theorem finish_append (origin : Int) (first second : List Placed) :
    finish origin (first ++ second) = finish (finish origin first) second := by
  induction first generalizing origin with
  | nil => rfl
  | cons entry rest ih => exact ih entry.finish

/-- A command has the address that it has without the commands behind it. -/
theorem target_append_left (inside : index < first.length) :
    target origin (first ++ second) index = target origin first index := by
  -- The place is found among the first commands.
  simp [target, List.getElem?_append_left inside, List.getElem?_eq_getElem inside]

/-- A command behind others has the address that it has where they end. -/
theorem target_append_right (origin : Int) (first second : List Placed) (index : Nat) :
    target origin (first ++ second) (first.length + index) =
      target (finish origin first) second index := by
  rw [target, List.getElem?_append_right (by omega), Nat.add_sub_cancel_left, finish_append]
  rfl

/-- Addresses do not depend on lines. -/
theorem target_moved (distance : Nat) (origin : Int) (placed : List Placed) (index : Nat) :
    target origin (placed.map (Placed.moved distance)) index = target origin placed index := by
  -- Only line numbers are moved, and no address.
  have ends : finish origin (placed.map (Placed.moved distance)) = finish origin placed := by
    induction placed generalizing origin with
    | nil => rfl
    | cons entry rest ih => exact ih entry.finish
  rw [target, List.getElem?_map, Option.map_map, ends]
  rfl

/-! ### Images in a row -/

variable {position : Int} {entry : Placed} {placed : List Placed} {bytes image rest : List Byte}

/-- A command that is encoded stands behind a gap and in front of the commands behind it. -/
theorem emit_cons_ok (encoded : entry.command.encode labels = .ok bytes)
    (emitted : emit labels entry.finish placed = .ok rest) :
    emit labels position (entry :: placed) =
      .ok (List.replicate (entry.address - position).toNat 0 ++ bytes ++ rest) := by
  -- The bytes are as many as the layout has set aside.
  have ends : entry.address + (bytes.length : Int) = entry.finish := by
    rw [Command.encode_length encoded, Placed.finish]
  rw [emit]
  simp only [encoded, ends]
  exact map_eq_ok.mpr ⟨rest, emitted, rfl⟩

/-- An image is the same with more labels. -/
theorem emit_extend (extended : labels.Extended others)
    (done : emit labels position placed = .ok image) : emit others position placed = .ok image := by
  -- Each entry is encoded as before, and its gap depends on addresses only.
  induction placed generalizing position image with
  | nil => exact done
  | cons entry rest ih =>
    obtain ⟨bytes, behind, encoded, -, emitted, rfl⟩ := emit_cons_eq_ok done
    exact emit_cons_ok (Command.encode_extend extended encoded) (ih emitted)

/-- An image is the same on other lines. -/
theorem emit_moved (distance : Nat) (done : emit labels position placed = .ok image) :
    emit labels position (placed.map (Placed.moved distance)) = .ok image := by
  -- The line of an entry is no part of its bytes.
  induction placed generalizing position image with
  | nil => exact done
  | cons entry rest ih =>
    obtain ⟨bytes, behind, encoded, -, emitted, rfl⟩ := emit_cons_eq_ok done
    have same : (entry.moved distance).command.encode labels = .ok bytes := encoded
    exact emit_cons_ok same (ih emitted)

/-- The image of commands in a row is their images in a row. -/
theorem emit_append (done : emit labels position first = .ok image)
    (behind : emit labels (finish position first) second = .ok rest) :
    emit labels position (first ++ second) = .ok (image ++ rest) := by
  -- What is emitted for the second entries begins where the first ones end.
  induction first generalizing position image with
  | nil =>
    obtain rfl := Except.ok.inj done
    exact behind
  | cons entry others ih =>
    obtain ⟨bytes, middle, encoded, -, emitted, rfl⟩ := emit_cons_eq_ok done
    rw [List.cons_append, emit_cons_ok encoded (ih emitted behind)]
    simp only [List.append_assoc]

end Layout

/-! ### Labels behind the last command -/

namespace Statement

variable {statements : List Statement} {statement : Statement} {index : Nat}

/-- No label stands behind the last command. -/
def Settled (statements : List Statement) : Prop :=
  ∀ front last behind, statements = front ++ last :: behind → last.command ≠ none →
    (∀ statement ∈ behind, statement.command = none) →
      ∀ statement ∈ behind, statement.label = none

/-- One of the statements with a command is the last. -/
theorem exists_last_command (commanded : ∃ statement ∈ statements, statement.command ≠ none) :
    ∃ front last behind, statements = front ++ last :: behind ∧ last.command ≠ none ∧
      ∀ statement ∈ behind, statement.command = none := by
  induction statements with
  | nil =>
    obtain ⟨statement, listed, -⟩ := commanded
    exact absurd listed List.not_mem_nil
  | cons first rest ih =>
    by_cases later : ∃ statement ∈ rest, statement.command ≠ none
    · obtain ⟨front, last, behind, rfl, present, none⟩ := ih later
      exact ⟨first :: front, last, behind, rfl, present, none⟩
    · -- No command stands behind the first statement, so it has the one there is.
      have none : ∀ statement ∈ rest, statement.command = none := by
        intro statement listed
        exact Classical.byContradiction fun present => later ⟨statement, listed, present⟩
      obtain ⟨statement, listed, present⟩ := commanded
      rcases List.mem_cons.mp listed with rfl | behind
      · exact ⟨[], statement, rest, rfl, present, none⟩
      · exact absurd (none statement behind) present

/-- If there is a command at all, one stands with every label or behind it. -/
theorem Settled.commanded (settled : Settled statements)
    (commanded : ∃ statement ∈ statements, statement.command ≠ none)
    (found : statements[index]? = some statement) (labelled : statement.label ≠ none) :
    ∃ other ∈ statements.drop index, other.command ≠ none := by
  -- Otherwise the last command stands before the label.
  obtain ⟨front, last, behind, rfl, present, none⟩ := exists_last_command commanded
  have unlabelled := settled front last behind rfl present none
  have before : index ≤ front.length := by
    refine Classical.byContradiction fun late => ?_
    have listed : statement ∈ behind := by
      rw [List.getElem?_append_right (by omega)] at found
      obtain ⟨place, same⟩ : ∃ place, index - front.length = place + 1 :=
        ⟨index - front.length - 1, by omega⟩
      rw [same, List.getElem?_cons_succ] at found
      exact List.mem_of_getElem? found
    exact labelled (unlabelled statement listed)
  refine ⟨last, ?_, present⟩
  rw [List.drop_append_of_le_length before]
  exact List.mem_append_right _ List.mem_cons_self

/-- Fewer commands stand before a place than in all, if one stands at the place or behind it. -/
theorem commandsBefore_lt (commanded : ∃ other ∈ statements.drop index, other.command ≠ none) :
    commandsBefore statements index < (statements.filterMap Statement.command).length := by
  -- A command behind the index is counted in the whole, but not before it.
  obtain ⟨other, listed, present⟩ := commanded
  obtain ⟨command, same⟩ := Option.ne_none_iff_exists'.mp present
  have counted : 0 < ((statements.drop index).filterMap Statement.command).length :=
    List.length_pos_of_mem (List.mem_filterMap.mpr ⟨other, listed, same⟩)
  have parts := congrArg List.length
    (congrArg (List.filterMap Statement.command) (List.take_append_drop index statements))
  rw [List.filterMap_append, List.length_append] at parts
  rw [commandsBefore, ← parts]
  omega

end Statement

/-! ### Programs in a row -/

namespace Layout

open Statement

variable {origin : Int} {front back statements : List Statement} {layout later whole : Layout}

/-- Two programs of which the second one starts where the first one ends are laid out as one. -/
theorem ofStatements_join (distance : Nat)
    (apart : ∀ name, Labelled front name → ¬Labelled back name)
    (laid : ofStatements front origin = .ok layout)
    (behind : ofStatements back (finish origin layout.placed) = .ok later) :
    ∃ whole, ofStatements (front ++ back.map (Statement.moved distance)) origin = .ok whole ∧
      whole.placed = layout.placed ++ later.placed.map (Placed.moved distance) := by
  -- Before the first statement no label is known.
  have unknown : Knows [] [] [] := by
    intro name
    simp [Labelled]
  obtain ⟨bound, left, knows, continues⟩ := place_append unknown laid
  have foreign : ∀ name, Labelled back name → (bound.lookup name).isSome = true ∨ name ∈ left →
      (([] : Labels).lookup name).isSome = true ∨ name ∈ ([] : List (List Char)) := by
    intro name labelled known
    exact absurd labelled (apart name ((knows name).mp known))
  obtain ⟨rest, placed, same⟩ := place_moved distance foreign behind
  refine ⟨⟨rest.labels, layout.placed ++ rest.placed⟩, ?_, congrArg _ same⟩
  rw [ofStatements, continues, placed]
  rfl

/-- Labels of a program have the addresses of its commands, and no others have a value. -/
theorem extended_of_targets {labels : Labels} (laid : ofStatements statements origin = .ok layout)
    (targets : ∀ index statement name, statements[index]? = some statement →
      statement.label = some name →
        labels.lookup name =
          some (target origin layout.placed (commandsBefore statements index))) :
    layout.labels.Extended labels := by
  intro operand value resolved
  rcases integer_eq_ok resolved with number | ⟨unread, known⟩
  · simp only [Operand.integer, number]
  · -- No label had a value, or waited for one, before the first statement.
    rcases place_source laid known with old | waiting | ⟨statement, listed, labelled⟩
    · cases old
    · exact absurd waiting List.not_mem_nil
    · obtain ⟨index, found⟩ := List.mem_iff_getElem?.mp listed
      have defined := place_defined (fun _ none => absurd none List.not_mem_nil) found labelled laid
      have same := known.symm.trans defined
      simp only [Operand.integer, unread, targets index statement operand found labelled, ← same]

/-- Labels of the first of two programs keep their values, unless they stand behind its end. -/
theorem extended_front (settled : Settled front)
    (commanded : ∃ statement ∈ front, statement.command ≠ none)
    (laid : ofStatements front origin = .ok layout) {rest : List Placed}
    (joined : ofStatements (front ++ back) origin = .ok whole)
    (placed : whole.placed = layout.placed ++ rest) : layout.labels.Extended whole.labels := by
  refine extended_of_targets laid fun index statement name found labelled => ?_
  have inside := (List.getElem?_eq_some_iff.mp found).1
  have among : (front ++ back)[index]? = some statement := by
    rw [List.getElem?_append_left inside, found]
  have defined := place_defined (fun _ none => absurd none List.not_mem_nil) among labelled joined
  -- The command that the label stands for is one of the first.
  have before : commandsBefore (front ++ back) index = commandsBefore front index := by
    rw [commandsBefore, List.take_append_of_le_length (Nat.le_of_lt inside), commandsBefore]
  have early := commandsBefore_lt (settled.commanded commanded found (by simp [labelled]))
  rw [← place_commands laid, List.length_map] at early
  rw [defined, placed, before, target_append_left early]

/-- Labels of the second of two programs keep their values. -/
theorem extended_back (distance : Nat) (laid : ofStatements front origin = .ok layout)
    (behind : ofStatements back (finish origin layout.placed) = .ok later)
    (joined : ofStatements (front ++ back.map (Statement.moved distance)) origin = .ok whole)
    (placed : whole.placed = layout.placed ++ later.placed.map (Placed.moved distance)) :
    later.labels.Extended whole.labels := by
  refine extended_of_targets behind fun index statement name found labelled => ?_
  have among : (front ++ back.map (Statement.moved distance))[front.length + index]? =
      some (statement.moved distance) := by
    rw [List.getElem?_append_right (by omega), Nat.add_sub_cancel_left, List.getElem?_map, found]
    rfl
  have defined := place_defined (fun _ none => absurd none List.not_mem_nil) among labelled joined
  -- All commands of the first program stand before the label.
  have before : commandsBefore (front ++ back.map (Statement.moved distance))
      (front.length + index) = layout.placed.length + commandsBefore back index := by
    rw [commandsBefore, List.take_length_add_append, List.filterMap_append, List.length_append,
      ← place_commands laid, List.length_map, commandsBefore, ← List.map_take, List.filterMap_map]
    rfl
  rw [defined, placed, before, target_append_right, target_moved]

end Layout

/--
Assembly is compositional.

A text behind another is assembled to its own image, behind the image of the other, if it is
assembled from the address at which that ends.
The two must not define a label in common, and no label of the first stands behind its last
command, where it would get the address of a command of the second.
-/
theorem assemble_joined {first second : List Char} {origin : Int} {image behind : List Byte}
    (assembled : assemble first origin = .ok image)
    (follows : assemble second (origin + image.length) = .ok behind)
    (apart : ∀ name, Statement.Labelled (Statement.parse first) name →
      ¬Statement.Labelled (Statement.parse second) name)
    (settled : Statement.Settled (Statement.parse first)) :
    assemble (first ++ '\n' :: second) origin = .ok (image ++ behind) := by
  unfold assemble assembleStatements at assembled follows ⊢
  rw [Statement.parse_join]
  generalize Statement.parse first = front at *
  generalize Statement.parse second = back at *
  generalize (splitAt '\n' first).length = distance
  cases laid : Layout.ofStatements front origin with
  | error refusal => simp [laid] at assembled
  | ok layout =>
    simp only [laid] at assembled
    -- The image ends where the layout says, so that the second text goes on there.
    rw [Layout.emit_length (Layout.place_consecutive laid) assembled] at follows
    cases followed : Layout.ofStatements back (Layout.finish origin layout.placed) with
    | error refusal => simp [followed] at follows
    | ok later =>
      simp only [followed] at follows
      obtain ⟨whole, joined, placed⟩ := Layout.ofStatements_join distance apart laid followed
      -- Labels of the first text are looked up in the whole, and so are those of the second.
      have tail := Layout.extended_back distance laid followed joined placed
      have front : Layout.emit whole.labels origin layout.placed = .ok image := by
        by_cases commanded : ∃ statement ∈ front, statement.command ≠ none
        · have head := Layout.extended_front settled commanded laid joined placed
          exact Layout.emit_extend head assembled
        · -- Without a command there is nothing that labels could change.
          have none : layout.placed = [] := by
            rw [← List.map_eq_nil_iff, Layout.place_commands laid, List.filterMap_eq_nil_iff]
            intro statement listed
            exact Classical.byContradiction fun present => commanded ⟨statement, listed, present⟩
          rw [none] at assembled ⊢
          exact assembled
      simp only [joined, placed]
      exact Layout.emit_append front (Layout.emit_moved distance (Layout.emit_extend tail follows))

/-- A text of five bytes, with a label in front of its last byte. -/
def oddHalf : List Char :=
  "DB 7\nback: JP back\nDB 9".toList

/-- A text with a label behind its first use. -/
def evenHalf : List Char :=
  "JP ahead\nahead: RET".toList

/-- An odd text is padded behind its end, and the addresses on both sides stay what they were. -/
theorem assemble_joined_odd :
    assemble oddHalf 512 = .ok [0x07, 0x00, 0x12, 0x02, 0x09] ∧
      assemble evenHalf 517 = .ok [0x00, 0x12, 0x08, 0x00, 0xEE] ∧
      assemble (oddHalf ++ '\n' :: evenHalf) 512 =
        .ok [0x07, 0x00, 0x12, 0x02, 0x09, 0x00, 0x12, 0x08, 0x00, 0xEE] := by
  have first : assemble oddHalf 512 = .ok [0x07, 0x00, 0x12, 0x02, 0x09] := by rfl
  have second : assemble evenHalf 517 = .ok [0x00, 0x12, 0x08, 0x00, 0xEE] := by rfl
  have differ : ∀ one ∈ Statement.parse oddHalf, ∀ other ∈ Statement.parse evenHalf,
      one.label ≠ none → one.label ≠ other.label := by decide
  have spoken : ∀ statement ∈ Statement.parse oddHalf, statement.command ≠ none := by decide
  have apart : ∀ name, Statement.Labelled (Statement.parse oddHalf) name →
      ¬Statement.Labelled (Statement.parse evenHalf) name := by
    -- No label of one text is one of the other.
    intro name here there
    obtain ⟨one, among, labelled⟩ := here
    obtain ⟨other, listed, same⟩ := there
    exact differ one among other listed (by simp [labelled]) (labelled.trans same.symm)
  -- Every line has a command, so none of them is behind the last.
  have settled : Statement.Settled (Statement.parse oddHalf) := by
    intro front last behind same _ none statement listed
    have among : statement ∈ Statement.parse oddHalf := by
      rw [same]
      exact List.mem_append_right _ (List.mem_cons_of_mem _ listed)
    exact absurd (none statement listed) (spoken statement among)
  exact ⟨first, second, assemble_joined first second apart settled⟩

end Chip8
