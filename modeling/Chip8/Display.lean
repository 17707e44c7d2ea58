import Chip8.Fault

/-! The monochrome display: a wrapping pixel grid onto which sprites are drawn by exclusive or. -/

namespace Chip8

/-- The supported display sizes. -/
inductive DisplayMode where
  | wide32
  | wide48
  | wide64
  | double64
  deriving DecidableEq

namespace DisplayMode

/-- All modes, in the order in which choices are listed. -/
def all : List DisplayMode :=
  [.double64, .wide32, .wide48, .wide64]

/-- Pixels per row. -/
def width : DisplayMode → Nat
  | .wide32 | .wide48 | .wide64 => 64
  | .double64 => 128

/-- Number of rows. -/
def height : DisplayMode → Nat
  | .wide32 => 32
  | .wide48 => 48
  | .wide64 | .double64 => 64

/-- A mode is named by its width and height. -/
def name (mode : DisplayMode) : String :=
  s!"{mode.width}x{mode.height}"

/-- The mode that carries a name. -/
def ofName? (name : String) : Option DisplayMode :=
  all.find? fun mode => mode.name == name

/-- Every mode has at least one column. -/
theorem width_pos (mode : DisplayMode) : 0 < mode.width := by
  cases mode <;> decide

/-- Every mode has at least one row. -/
theorem height_pos (mode : DisplayMode) : 0 < mode.height := by
  cases mode <;> decide

/-- The pixels of a grid, row by row. -/
abbrev Cell (mode : DisplayMode) := Fin (mode.width * mode.height)

/-- The pixel at a pair of coordinates, which wrap around both edges. -/
def cell (mode : DisplayMode) (x y : Int) : mode.Cell :=
  ⟨(y % mode.height).toNat * mode.width + (x % mode.width).toNat, by
    -- A wrapped row ends at most where the grid ends.
    have width := mode.width_pos
    have height := mode.height_pos
    have column := Int.emod_lt_of_pos x (Int.natCast_pos.mpr width)
    have row := Int.emod_lt_of_pos y (Int.natCast_pos.mpr height)
    have rowEnd : (y % mode.height).toNat + 1 ≤ mode.height := by omega
    have upTo := Nat.mul_le_mul_right mode.width rowEnd
    rw [Nat.add_mul, Nat.one_mul, Nat.mul_comm mode.height] at upTo
    omega⟩

end DisplayMode

/-- The pixels of a display, of which the lit ones are true. -/
abbrev Grid (mode : DisplayMode) := Vector Bool (mode.width * mode.height)

namespace Grid

variable {mode : DisplayMode}

/-- A grid without a lit pixel. -/
def blank (mode : DisplayMode) : Grid mode :=
  Vector.replicate _ false

/-- Whether a pixel is lit. -/
def lit (grid : Grid mode) (cell : mode.Cell) : Bool :=
  grid[cell]

/-- Turns one pixel over. -/
def flip (grid : Grid mode) (cell : mode.Cell) : Grid mode :=
  grid.set cell (!grid[cell])

/-- Flips pixels in order, and tells whether one of them was lit when its turn came. -/
def flipAll (grid : Grid mode) : List mode.Cell → Bool × Grid mode
  | [] => (false, grid)
  | cell :: rest =>
    let erased := lit grid cell
    let (erasedLater, drawn) := flipAll (flip grid cell) rest
    (erased || erasedLater, drawn)

end Grid

/-! ### Sprites -/

/-- Whether the bit of a column is set in a sprite row, whose leftmost pixel is bit seven. -/
def spriteBit (bits : Int) (column : Nat) : Bool :=
  (bits >>> (7 - column)) % 2 == 1

/-- The pixels that one row of a sprite covers, left to right. -/
def rowFootprint (mode : DisplayMode) (x y bits : Int) : List mode.Cell :=
  ((List.range 8).filter (spriteBit bits)).map fun (column : Nat) => mode.cell (x + column) y

/-- The pixels that a sprite covers, row by row, each as often as the sprite wraps onto it. -/
def footprint (mode : DisplayMode) (x y : Int) : List Int → List mode.Cell
  | [] => []
  | bits :: rest => rowFootprint mode x y bits ++ footprint mode x (y + 1) rest

/-- A pixel grid and whether it has changed since it was last presented. -/
structure Display where
  mode : DisplayMode
  grid : Grid mode
  dirty : Bool

namespace Display

/-- A blank display that has not changed yet. -/
def blank (mode : DisplayMode) : Display :=
  ⟨mode, Grid.blank mode, false⟩

/-- Whether the pixel at a pair of wrapping coordinates is lit. -/
def pixel (display : Display) (x y : Int) : Bool :=
  display.grid.lit (display.mode.cell x y)

/-- The pixels of one row, left to right. -/
def row (display : Display) (y : Nat) : List Bool :=
  (List.range display.mode.width).map fun (x : Nat) => display.pixel x y

/-- All rows, top to bottom. -/
def rows (display : Display) : List (List Bool) :=
  (List.range display.mode.height).map display.row

/-- Number of lit pixels. -/
def litCount (display : Display) : Nat :=
  display.grid.toList.count true

/-- One line of text for every row. -/
def render (display : Display) (on off : String) : String :=
  "\n".intercalate (display.rows.map fun row =>
    String.join (row.map fun isLit => if isLit then on else off))

/-- Turns all pixels off. -/
def clear (display : Display) : Display :=
  { display with grid := Grid.blank display.mode, dirty := true }

/-- Takes note that the grid has been presented. -/
def presented (display : Display) : Display :=
  { display with dirty := false }

/-- Draws a sprite by exclusive or, and tells whether a lit pixel was erased. -/
def draw (display : Display) (x y : Int) (sprite : List Int) : Bool × Display :=
  let cells := footprint display.mode x y sprite
  let (collided, grid) := display.grid.flipAll cells
  (collided, { display with grid, dirty := display.dirty || !cells.isEmpty })

end Display

end Chip8
