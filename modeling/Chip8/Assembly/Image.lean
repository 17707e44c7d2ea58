import Chip8.Assembly.Encoding

/-! Program images: the bytes of laid-out commands, with zeros in the gaps between them. -/

namespace Chip8

/-- The bytes of placed commands behind an address, and the zeros that fill each gap. -/
def Layout.emit (labels : Labels) (position : Int) : List Placed → Except AssemblyError (List Byte)
  | [] => .ok []
  | placed :: rest =>
    match placed.command.encode labels with
    | .error cause => .error ⟨placed.line, cause⟩
    | .ok bytes =>
      let gap := (placed.address - position).toNat
      (emit labels (placed.address + bytes.length) rest).map fun image =>
        List.replicate gap 0 ++ bytes ++ image

/-- The image of statements that start at an origin. -/
def assembleStatements (statements : List Statement) (origin : Int) :
    Except AssemblyError (List Byte) :=
  match Layout.ofStatements statements origin with
  | .error error => .error error
  | .ok layout => Layout.emit layout.labels origin layout.placed

/-- The image of a source text that starts at an origin. -/
def assemble (source : List Char) (origin : Int) : Except AssemblyError (List Byte) :=
  assembleStatements (Statement.parse source) origin

end Chip8
