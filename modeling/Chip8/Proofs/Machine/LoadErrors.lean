import Chip8.Proofs.Assembly.Located
import Chip8.Proofs.Assembly.Source
import Chip8.Proofs.Machine.History

/-!
Source texts that cannot be assembled.

The error is about the first statement with a fault, and a machine that was to load the text is
left as it was.
-/

namespace Chip8

open Statement

/-- What the assembler makes of a source text. -/
structure AssemblyLaw (source : List Char) (origin : Int) : Prop where
  /-- Statements come in the order of their lines. -/
  ordered : (parse source).Pairwise fun first second => first.line < second.line
  /-- A statement is what is said on the line of its number. -/
  spoken : ∀ statement ∈ parse source, ∃ text,
    (splitAt '\n' source)[statement.line - 1]? = some text ∧
      parseLine statement.line text = some statement
  /-- A command has a mnemonic, by which its encoding can be looked up. -/
  named : ∀ statement ∈ parse source, ∀ command, statement.command = some command →
    command.mnemonic ≠ []
  /-- The bytes before a command never reach beyond its address, so no gap is negative. -/
  padded : ∀ layout index entry image, Layout.ofStatements (parse source) origin = .ok layout →
    layout.placed[index]? = some entry →
    Layout.emit layout.labels origin (layout.placed.take index) = .ok image →
      origin + image.length ≤ entry.address
  /-- There is an image if no statement has a fault, and else the first that has one is told. -/
  verdict :
    (∃ layout image, assemble source origin = .ok image ∧
      Layout.ofStatements (parse source) origin = .ok layout ∧
      Faultless (LayoutFault origin) (parse source) ∧
      Faultless (EncodeFault layout.labels) (parse source)) ∨
    ∃ error, assemble source origin = .error error ∧
      1 ≤ error.line ∧ error.line ≤ source.count '\n' + 1 ∧
      (error.Locates (parse source) (LayoutFault origin) ∨
        Faultless (LayoutFault origin) (parse source) ∧
          ∃ layout, Layout.ofStatements (parse source) origin = .ok layout ∧
            error.Locates (parse source) (EncodeFault layout.labels))

variable {source : List Char} {origin : Int} {error : AssemblyError}

/-- An error that locates a statement of a source text gives one of its lines. -/
theorem AssemblyError.Locates.line {faulty : List Statement → Statement → AssemblyCause → Prop}
    (locates : error.Locates (parse source) faulty) :
    1 ≤ error.line ∧ error.line ≤ source.count '\n' + 1 := by
  -- The line is that of a statement of the text.
  obtain ⟨front, statement, behind, same, line, -, -⟩ := locates
  have listed : statement ∈ parse source := by
    rw [same]
    exact List.mem_append_right front List.mem_cons_self
  obtain ⟨first, last, -⟩ := parse_line listed
  omega

/-- The assembler judges a source text in two passes. -/
theorem assembly_verdict (source : List Char) (origin : Int) : AssemblyLaw source origin := by
  -- The second pass is made only over statements that were laid out.
  refine ⟨parseLines_sorted 1 _, ?_, ?_, ?_, ?_⟩
  · intro statement listed
    exact (parse_line listed).2.2
  · intro statement listed command present
    exact parse_filled listed present
  · intro layout index entry image laid found done
    exact Layout.emit_front (Layout.place_consecutive laid) found done
  · have laying := Layout.ofStatements_judges (parse source) origin
    rw [assemble, assembleStatements]
    cases laid : Layout.ofStatements (parse source) origin with
    | error error =>
      rw [laid] at laying
      obtain ⟨first, last⟩ := AssemblyError.Locates.line laying
      exact .inr ⟨error, rfl, first, last, .inl laying⟩
    | ok layout =>
      rw [laid] at laying
      have encoding : Judges (Layout.emit layout.labels origin layout.placed) ([] ++ parse source)
          (EncodeFault layout.labels) :=
        Layout.emit_judges (Layout.place_said laid) faultless_nil
      rw [List.nil_append] at encoding
      cases emitted : Layout.emit layout.labels origin layout.placed with
      | error error =>
        rw [emitted] at encoding
        obtain ⟨first, last⟩ := AssemblyError.Locates.line encoding
        exact .inr ⟨error, emitted, first, last, .inr ⟨laying, layout, rfl, encoding⟩⟩
      | ok image =>
        rw [emitted] at encoding
        exact .inl ⟨layout, image, emitted, rfl, laying, encoding⟩

/-- A machine refuses a source text with the error of the assembler, or else for its image. -/
theorem Machine.loadSource_error {machine left : Machine} {reason : LoadError}
    (refused : machine.loadSource source = (.error reason, left)) :
    (∃ error, assemble source machine.config.entryPoint = .error error ∧
      reason = .assembly error) ∨
    ∃ image fault, assemble source machine.config.entryPoint = .ok image ∧
      machine.loadImage image = (.error fault, left) ∧ reason = .refused fault := by
  -- A text without an image is refused before anything is loaded.
  unfold loadSource at refused
  split at refused
  · rename_i error assembled
    exact .inl ⟨error, assembled, (Except.error.inj (Prod.mk.inj refused).1).symm⟩
  · rename_i image assembled
    obtain ⟨answer, rfl⟩ := Prod.mk.inj refused
    obtain ⟨fault, failed, same⟩ := mapError_eq_error.mp answer
    exact .inr ⟨image, fault, assembled, Prod.ext failed rfl, same.symm⟩

/--
Every source text is assembled or refused for its first fault.

The fault is one of the layout if there is any such fault, and else one of an encoding.
A machine that cannot load a source text tells the fault and is left as it was.
-/
theorem assembly_errors_located :
    (∀ source origin, AssemblyLaw source origin) ∧
    ∀ (machine left : Machine) source reason,
      machine.loadSource source = (.error reason, left) →
        ((∃ error, assemble source machine.config.entryPoint = .error error ∧
            reason = .assembly error) ∨
          ∃ image fault, assemble source machine.config.entryPoint = .ok image ∧
            machine.loadImage image = (.error fault, left) ∧ reason = .refused fault) ∧
        left = machine ∧ (Event.loadSource source).apply machine = machine := by
  refine ⟨assembly_verdict, ?_⟩
  intro machine left source reason refused
  obtain rfl := machine.loadSource_atomic source reason left refused
  refine ⟨Machine.loadSource_error refused, rfl, ?_⟩
  -- The event leaves what the refused load has left.
  rw [Event.apply, refused]

/-- Two faults, of which the second is one of the layout. -/
def doublyFaulty : List Char :=
  "again: JP nowhere\nagain: CLS".toList

/-- A label that is used twice is told before an operand that is unknown on an earlier line. -/
theorem assembly_errors_located_twice :
    (∃ error, assemble doublyFaulty 0x200 = .error error ∧ error.line = 2 ∧
      error.line ≤ doublyFaulty.count '\n' + 1) ∧
    (Event.loadSource doublyFaulty).apply .standard =
      .standard := by
  -- The label is defined again in the second line.
  have refused : assemble doublyFaulty 0x200 =
      .error ⟨2, .duplicateLabel "AGAIN".toList⟩ := by rfl
  refine ⟨?_, ?_⟩
  · rcases (assembly_errors_located.1 doublyFaulty 0x200).verdict with
      ⟨layout, image, assembled, -⟩ | ⟨error, same, -, last, -⟩
    · rw [refused] at assembled
      cases assembled
    · rw [refused] at same
      cases same
      exact ⟨_, refused, rfl, last⟩
  · have loading : Machine.standard.loadSource doublyFaulty =
        (.error (.assembly ⟨2, .duplicateLabel "AGAIN".toList⟩),
          .standard) := by
      have entry : Machine.standard.config.entryPoint = 0x200 := rfl
      rw [Machine.loadSource, entry, refused]
    exact (assembly_errors_located.2 _ _ _ _ loading).2.2

end Chip8
