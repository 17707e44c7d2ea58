import Chip8.Assembly.Layout
import Chip8.Proofs.Refusal

/-!
What the layout of a program says about its commands and labels.

Commands stand one behind the other in source order, and a label has the address of the first
command behind it, or of the end.
-/

namespace Chip8

/-- The address behind a placed command. -/
def Placed.finish (placed : Placed) : Int :=
  placed.address + placed.command.size

/-- The number of commands before a statement. -/
def Statement.commandsBefore (statements : List Statement) (index : Nat) : Nat :=
  ((statements.take index).filterMap Statement.command).length

namespace Layout

/-- The address behind the last of some placed commands, or the given one if there are none. -/
def finish (address : Int) : List Placed → Int
  | [] => address
  | placed :: rest => finish placed.finish rest

/-- The address of the command at a place in the list, or of the end if there is none. -/
def target (address : Int) (placed : List Placed) (index : Nat) : Int :=
  (placed[index]?.map Placed.address).getD (finish address placed)

/-- Commands that stand one behind the other from an address on, and end within memory. -/
def Consecutive : Int → List Placed → Prop
  | _, [] => True
  | address, placed :: rest =>
    placed.address = placed.command.startFrom address ∧ placed.finish ≤ memorySize ∧
      Consecutive placed.finish rest

/-! ### Starts -/

/-- A run of bytes starts at once. -/
theorem startFrom_of_data {command : Command} (data : command.isData = true) (address : Int) :
    command.startFrom address = address := by
  -- Data need no alignment.
  simp only [Command.startFrom, data, if_true]

/-- Any other command starts at the next even address. -/
theorem startFrom_of_code {command : Command} (code : command.isData = false) (address : Int) :
    command.startFrom address % 2 = 0 ∧ address ≤ command.startFrom address ∧
      command.startFrom address ≤ address + 1 := by
  -- An odd address is left by one byte.
  simp only [Command.startFrom, code, Bool.false_eq_true, if_false]
  omega

/-- No command starts before the address at which it may start. -/
theorem le_startFrom (command : Command) (address : Int) : address ≤ command.startFrom address := by
  -- Alignment only moves forward.
  cases data : command.isData with
  | true => exact Int.le_of_eq (startFrom_of_data data address).symm
  | false => exact (startFrom_of_code data address).2.1

variable {address origin : Int} {placed : List Placed} {entry : Placed} {index : Nat}

/-- Every one of consecutive commands starts behind the one before it, and ends within memory. -/
theorem Consecutive.start (consecutive : Consecutive address placed)
    (found : placed[index]? = some entry) :
    entry.address = entry.command.startFrom (finish address (placed.take index)) ∧
      entry.finish ≤ memorySize := by
  -- The end of the commands before a place is followed command by command.
  induction placed generalizing address index with
  | nil => simp at found
  | cons first rest ih =>
    obtain ⟨starts, inside, behind⟩ := consecutive
    cases index with
    | zero =>
      rw [List.getElem?_cons_zero, Option.some.injEq] at found
      subst found
      exact ⟨starts, inside⟩
    | succ index => exact ih behind found

/-- The first of consecutive commands are consecutive. -/
theorem Consecutive.take (consecutive : Consecutive address placed) (count : Nat) :
    Consecutive address (placed.take count) := by
  -- Each command only has to do with the one before it.
  induction placed generalizing address count with
  | nil => simpa using consecutive
  | cons first rest ih =>
    obtain ⟨starts, inside, behind⟩ := consecutive
    cases count with
    | zero => trivial
    | succ count => exact ⟨starts, inside, ih behind count⟩

/-- The end of consecutive commands lies within memory, if there are any. -/
theorem Consecutive.finish_le (consecutive : Consecutive address placed) (filled : placed ≠ []) :
    finish address placed ≤ memorySize := by
  -- The end of the last command is the end of them all.
  induction placed generalizing address with
  | nil => exact absurd rfl filled
  | cons first rest ih =>
    obtain ⟨-, inside, behind⟩ := consecutive
    cases rest with
    | nil => exact inside
    | cons second others => exact ih behind (List.cons_ne_nil _ _)

/-! ### Labels that wait -/

variable {labels : Labels} {waiting next : List (List Char)} {statement : Statement}
  {name : List Char}

/-- Names that get a value have it, and all others keep theirs. -/
theorem lookup_bindAll (labels : Labels) (waiting : List (List Char)) (address : Int)
    (name : List Char) :
    (bindAll labels waiting address).lookup name =
      if name ∈ waiting then some address else labels.lookup name := by
  -- The names are put in front of the labels, so they are found first.
  induction waiting with
  | nil => simp [bindAll]
  | cons first rest ih =>
    have step : (bindAll labels (first :: rest) address).lookup name =
        if name = first then some address else (bindAll labels rest address).lookup name := by
      simp only [bindAll, List.map_cons, List.cons_append, List.lookup_cons]
      by_cases same : name = first
      · simp [same]
      · have differ : (name == first) = false := by simpa using same
        rw [differ, if_neg same]
    rw [step, ih]
    by_cases same : name = first <;> simp [same]

/-- The names that wait behind a statement are those before it and its own label. -/
theorem mem_await (done : await labels waiting statement = .ok next) :
    name ∈ next ↔ name ∈ waiting ∨ statement.label = some name := by
  -- A label that can be taken is put in front of the names that wait.
  unfold await at done
  split at done
  · rename_i unlabelled
    obtain rfl := Except.ok.inj done
    simp [unlabelled]
  · rename_i label labelled
    split at done
    · cases done
    · obtain rfl := Except.ok.inj done
      simp [labelled, eq_comm]

/-- No waiting name has a value. -/
theorem await_fresh (fresh : ∀ name ∈ waiting, labels.lookup name = none)
    (done : await labels waiting statement = .ok next) :
    ∀ name ∈ next, labels.lookup name = none := by
  intro name listed
  rcases (mem_await done).mp listed with earlier | labelled
  · exact fresh name earlier
  · -- A label that had a value would have been refused.
    simp only [await, labelled] at done
    split at done
    · cases done
    · rename_i unused
      simp only [Bool.or_eq_true, not_or, Option.not_isSome_iff_eq_none] at unused
      exact unused.1

/-! ### Statements that are laid out -/

variable {statements rest : List Statement} {layout : Layout} {value : Int}

/-- A statement waits with its label, and is placed behind the commands before it. -/
theorem place_cons_eq_ok (done : place labels waiting address (statement :: rest) = .ok layout) :
    ∃ next, await labels waiting statement = .ok next ∧
      ((statement.command = none ∧ place labels next address rest = .ok layout) ∨
        ∃ (command : Command) (entry : Placed) (inner : Layout), statement.command = some command ∧
          entry = ⟨statement.line, command.startFrom address, command⟩ ∧
          entry.finish ≤ memorySize ∧
          place (bindAll labels next entry.address) [] entry.finish rest = .ok inner ∧
          layout = ⟨inner.labels, entry :: inner.placed⟩) := by
  -- Each check that stands before the rest has passed.
  unfold place at done
  split at done
  · cases done
  · rename_i next awaited
    refine ⟨next, awaited, ?_⟩
    split at done
    · exact .inl ⟨‹_›, done⟩
    · rename_i command present
      simp only at done
      split at done
      · cases done
      · rename_i inside
        -- The rest is laid out behind the command.
        obtain ⟨inner, laid, same⟩ := map_eq_ok.mp done
        exact .inr ⟨command, _, inner, present, rfl, Int.not_lt.mp inside, laid, same.symm⟩

/-- The commands of the statements are placed in their order. -/
theorem place_commands (done : place labels waiting address statements = .ok layout) :
    layout.placed.map Placed.command = statements.filterMap Statement.command := by
  -- A statement adds its command, if it has one, and nothing else.
  induction statements generalizing labels waiting address layout with
  | nil =>
    obtain rfl := Except.ok.inj done
    rfl
  | cons statement rest ih =>
    obtain ⟨next, -, ⟨absent, laid⟩ | ⟨command, entry, inner, present, rfl, -, laid, rfl⟩⟩ :=
      place_cons_eq_ok done
    · rw [List.filterMap_cons_none absent]
      exact ih laid
    · rw [List.filterMap_cons_some present, List.map_cons, ih laid]

/-- The placed commands are consecutive. -/
theorem place_consecutive (done : place labels waiting address statements = .ok layout) :
    Consecutive address layout.placed := by
  -- The rest is placed from the end of the command on, which was checked against memory.
  induction statements generalizing labels waiting address layout with
  | nil =>
    obtain rfl := Except.ok.inj done
    trivial
  | cons statement rest ih =>
    obtain ⟨next, -, ⟨-, laid⟩ | ⟨command, entry, inner, -, rfl, inside, laid, rfl⟩⟩ :=
      place_cons_eq_ok done
    · exact ih laid
    · exact ⟨rfl, inside, ih laid⟩

/-! ### Values of labels -/

/-- Names that get a value do not hide a name that has one. -/
theorem bindAll_kept (fresh : ∀ name ∈ waiting, labels.lookup name = none)
    (known : labels.lookup name = some value) (address : Int) :
    (bindAll labels waiting address).lookup name = some value := by
  -- A name with a value does not wait.
  have absent : name ∉ waiting := fun listed => by simp [fresh name listed] at known
  rw [lookup_bindAll, if_neg absent, known]

/-- A label that has a value keeps it, if no waiting name has one. -/
theorem place_kept (fresh : ∀ name ∈ waiting, labels.lookup name = none)
    (known : labels.lookup name = some value)
    (done : place labels waiting address statements = .ok layout) :
    layout.labels.lookup name = some value := by
  -- Whatever is bound on the way was waiting, and no waiting name has a value.
  induction statements generalizing labels waiting address layout with
  | nil =>
    obtain rfl := Except.ok.inj done
    exact bindAll_kept fresh known address
  | cons statement rest ih =>
    obtain ⟨next, awaited, ⟨-, laid⟩ | ⟨command, entry, inner, -, -, -, laid, rfl⟩⟩ :=
      place_cons_eq_ok done
    · exact ih (await_fresh fresh awaited) known laid
    · have known := bindAll_kept (await_fresh fresh awaited) known entry.address
      have kept := ih (fun _ listed => absurd listed List.not_mem_nil) known laid
      exact kept

/-- A label that is bound to a command keeps the command's address behind it. -/
theorem place_bound {start : Int} (listed : name ∈ waiting)
    (done : place (bindAll labels waiting start) [] address statements = .ok layout) :
    layout.labels.lookup name = some start := by
  -- Behind the command nothing waits any longer.
  have bound : (bindAll labels waiting start).lookup name = some start := by
    rw [lookup_bindAll, if_pos listed]
  exact place_kept (fun _ listed => absurd listed List.not_mem_nil) bound done

/-- A label that waits gets the address of the first command that is placed, or of the end. -/
theorem place_waiting (fresh : ∀ name ∈ waiting, labels.lookup name = none)
    (listed : name ∈ waiting) (done : place labels waiting address statements = .ok layout) :
    layout.labels.lookup name = some (target address layout.placed 0) := by
  -- Names wait over statements without a command, until the first one that has one.
  induction statements generalizing labels waiting address layout with
  | nil =>
    obtain rfl := Except.ok.inj done
    rw [lookup_bindAll, if_pos listed]
    rfl
  | cons statement rest ih =>
    obtain ⟨next, awaited, outcome⟩ := place_cons_eq_ok done
    have listed := (mem_await awaited).mpr (.inl listed)
    rcases outcome with ⟨-, laid⟩ | ⟨command, entry, inner, -, -, -, laid, rfl⟩
    · exact ih (await_fresh fresh awaited) listed laid
    · -- The command gives the label its address.
      have bound := place_bound listed laid
      exact bound

/-- A statement's label has the address of the first command at or behind it, or of the end. -/
theorem place_defined (fresh : ∀ name ∈ waiting, labels.lookup name = none)
    (found : statements[index]? = some statement) (labelled : statement.label = some name)
    (done : place labels waiting address statements = .ok layout) :
    layout.labels.lookup name =
      some (target address layout.placed (Statement.commandsBefore statements index)) := by
  -- Statements before it only count their commands.
  induction statements generalizing labels waiting address layout index with
  | nil => simp at found
  | cons first rest ih =>
    obtain ⟨next, awaited, outcome⟩ := place_cons_eq_ok done
    have freshNext := await_fresh fresh awaited
    cases index with
    | zero =>
      -- The label joins those that wait, and they all get the same address.
      rw [List.getElem?_cons_zero, Option.some.injEq] at found
      subst found
      have listed := (mem_await awaited).mpr (.inr labelled)
      rcases outcome with ⟨-, laid⟩ | ⟨command, entry, inner, -, -, -, laid, rfl⟩
      · exact place_waiting freshNext listed laid
      · have bound := place_bound listed laid
        exact bound
    | succ index =>
      rw [List.getElem?_cons_succ] at found
      rcases outcome with ⟨absent, laid⟩ | ⟨command, entry, inner, present, -, -, laid, rfl⟩
      · have count : Statement.commandsBefore (first :: rest) (index + 1) =
            Statement.commandsBefore rest index := by
          simp [Statement.commandsBefore, absent]
        rw [count]
        exact ih freshNext found laid
      · have count : Statement.commandsBefore (first :: rest) (index + 1) =
            Statement.commandsBefore rest index + 1 := by
          simp [Statement.commandsBefore, present]
        rw [count]
        exact ih (fun _ listed => absurd listed List.not_mem_nil) found laid

/-- A name has a value only if it had one, waited for one, or labels a statement. -/
theorem place_source (done : place labels waiting address statements = .ok layout)
    (known : layout.labels.lookup name = some value) :
    labels.lookup name = some value ∨ name ∈ waiting ∨
      ∃ statement ∈ statements, statement.label = some name := by
  -- Values come from the names that wait, and those come from labels of statements.
  induction statements generalizing labels waiting address layout with
  | nil =>
    obtain rfl := Except.ok.inj done
    rw [lookup_bindAll] at known
    split at known
    · exact .inr (.inl ‹_›)
    · exact .inl known
  | cons statement rest ih =>
    obtain ⟨next, awaited, outcome⟩ := place_cons_eq_ok done
    -- A name that waits behind the statement waited before it, or is its label.
    have waits (listed : name ∈ next) : labels.lookup name = some value ∨ name ∈ waiting ∨
        ∃ other ∈ statement :: rest, other.label = some name := by
      rcases (mem_await awaited).mp listed with earlier | labelled
      · exact .inr (.inl earlier)
      · exact .inr (.inr ⟨statement, List.mem_cons_self .., labelled⟩)
    rcases outcome with ⟨-, laid⟩ | ⟨command, entry, inner, -, -, -, laid, rfl⟩
    · rcases ih laid known with old | listed | ⟨other, among, labelled⟩
      · exact .inl old
      · exact waits listed
      · exact .inr (.inr ⟨other, List.mem_cons_of_mem _ among, labelled⟩)
    · rcases ih laid known with bound | none | ⟨other, among, labelled⟩
      · rw [lookup_bindAll] at bound
        split at bound
        · exact waits ‹_›
        · exact .inl bound
      · exact absurd none List.not_mem_nil
      · exact .inr (.inr ⟨other, List.mem_cons_of_mem _ among, labelled⟩)

end Layout

end Chip8
