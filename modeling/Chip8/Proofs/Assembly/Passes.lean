import Chip8.Proofs.Assembly.Image
import Chip8.Proofs.Assembly.Label

/-!
The two passes of the assembler agree.

The first pass gives addresses to commands and labels, and the second pass writes bytes that stand
at just these addresses.
-/

namespace Chip8

/-- What the layout of statements from an origin on and the image that was emitted for it share. -/
structure Layout.Agrees (layout : Layout) (statements : List Statement) (origin : Int)
    (image : List Byte) : Prop where
  /-- The placed commands are those of the statements, in their order. -/
  commands : layout.placed.map Placed.command = statements.filterMap Statement.command
  /-- The bytes of every command stand in the image at its address. -/
  bytes : ∀ (index : Nat) (entry : Placed), layout.placed[index]? = some entry →
    ∃ front bytes behind, image = front ++ bytes ++ behind ∧
      origin + front.length = entry.address ∧
      entry.command.encode layout.labels = .ok bytes ∧ bytes.length = entry.command.size
  /-- A run of bytes stands right behind what is before it. -/
  data : ∀ (index : Nat) (entry : Placed), layout.placed[index]? = some entry →
    entry.command.isData = true → entry.address = finish origin (layout.placed.take index)
  /-- Any other command starts at an even address, at most one byte behind what is before it. -/
  code : ∀ (index : Nat) (entry : Placed), layout.placed[index]? = some entry →
    entry.command.isData = false → entry.address % 2 = 0 ∧
      finish origin (layout.placed.take index) ≤ entry.address ∧
      entry.address ≤ finish origin (layout.placed.take index) + 1
  /-- The gaps between commands are filled with zeros. -/
  gaps : ∀ (index : Nat) (entry : Placed) (address : Int), layout.placed[index]? = some entry →
    finish origin (layout.placed.take index) ≤ address → address < entry.address →
      image[(address - origin).toNat]? = some 0
  /-- The image ends right behind the last command. -/
  ends : origin + image.length = finish origin layout.placed
  /-- An image with a command in it ends within memory. -/
  fits : layout.placed ≠ [] → origin + image.length ≤ memorySize
  /-- The label of a statement has the address of the first command from there on, or of the end. -/
  labels : ∀ (index : Nat) (statement : Statement) (name : List Char),
    statements[index]? = some statement → statement.label = some name →
      Operand.integer layout.labels name =
        .ok (target origin layout.placed (Statement.commandsBefore statements index))
  /-- An operand that is no number has a value only as the label of a statement. -/
  operands : ∀ operand value, Operand.integer layout.labels operand = .ok value →
    Operand.number? operand = some value ∨
      ∃ (index : Nat) (statement : Statement), statements[index]? = some statement ∧
        statement.label = some operand ∧
        value = target origin layout.placed (Statement.commandsBefore statements index)

variable {source : List Char} {origin : Int} {image : List Byte}

/-- An image ends within memory, if its origin lies there. -/
theorem Layout.Agrees.fits_origin {layout : Layout} {statements : List Statement}
    (agrees : layout.Agrees statements origin image) (inside : origin ≤ memorySize) :
    origin + image.length ≤ memorySize := by
  by_cases empty : layout.placed = []
  · -- Without a command the image ends at its origin.
    have ends := agrees.ends
    rw [empty, Layout.finish] at ends
    omega
  · exact agrees.fits empty

/-- The layout of an assembled source text agrees with its image. -/
theorem assemble_agrees (done : assemble source origin = .ok image) :
    ∃ layout, Layout.ofStatements (Statement.parse source) origin = .ok layout ∧
      layout.Agrees (Statement.parse source) origin image := by
  unfold assemble assembleStatements at done
  cases laid : Layout.ofStatements (Statement.parse source) origin with
  | error refusal => simp [laid] at done
  | ok layout =>
    simp only [laid] at done
    have consecutive := Layout.place_consecutive laid
    have length := Layout.emit_length consecutive done
    -- Every label that a statement has got the value of a target.
    have labels : ∀ (index : Nat) (statement : Statement) (name : List Char),
        (Statement.parse source)[index]? = some statement → statement.label = some name →
          layout.labels.lookup name = some (Layout.target origin layout.placed
            (Statement.commandsBefore (Statement.parse source) index)) :=
      fun index statement name found labelled =>
        Layout.place_defined (fun _ listed => absurd listed List.not_mem_nil) found labelled laid
    refine ⟨layout, rfl, {
      commands := Layout.place_commands laid
      bytes := fun index entry found => Layout.emit_bytes consecutive done found
      data := fun index entry found data => ?_
      code := fun index entry found code => ?_
      gaps := fun index entry address found => Layout.emit_gap consecutive done found
      ends := length
      fits := fun filled => length ▸ consecutive.finish_le filled
      labels := fun index statement name found labelled => ?_
      operands := fun operand value resolved => ?_ }⟩
    · -- Data starts where the entry before it ends, and code at an even address from there.
      rw [(consecutive.start found).1, Layout.startFrom_of_data data]
    · rw [(consecutive.start found).1]
      exact Layout.startFrom_of_code code _
    · exact integer_of_lookup (Statement.parse_label (List.mem_of_getElem? found) labelled)
        (labels index statement name found labelled)
    · rcases integer_eq_ok resolved with number | ⟨-, known⟩
      · exact .inl number
      · -- No label had a value, or waited for one, before the first statement.
        rcases Layout.place_source laid known with old | waiting | ⟨statement, listed, labelled⟩
        · cases old
        · exact absurd waiting List.not_mem_nil
        · obtain ⟨index, found⟩ := List.mem_iff_getElem?.mp listed
          have value := (labels index statement operand found labelled).symm.trans known
          exact .inr ⟨index, statement, found, labelled, (Option.some.inj value).symm⟩

end Chip8
