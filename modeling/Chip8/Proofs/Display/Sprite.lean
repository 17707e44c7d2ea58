import Chip8.Proofs.Display.Flips
import Chip8.Proofs.Execution.Arithmetic
import Chip8.Proofs.Memory.Store

/-!
What drawing a sprite does to the pixels of a display.

A sprite no taller than the display covers no pixel twice, so that every set bit turns its pixel
over once, and a pixel that was lit is known to be erased.
-/

namespace Chip8

namespace DisplayMode

/-- Whether a sprite has a set bit at a pixel, with distances that wrap around the edges. -/
def covered (mode : DisplayMode) (x y : Int) (rows : List Int) (column row : Int) : Bool :=
  let across := ((column - x) % mode.width).toNat
  let down := ((row - y) % mode.height).toNat
  -- The leftmost pixel of a row is its bit seven.
  decide (across < 8) && decide (down < rows.length) &&
    rows.getD down 0 / (Nat.pow 2 (7 - across) : Nat) % 2 == 1

/-- The coordinates of all pixels, row by row, as columns and rows. -/
def places (mode : DisplayMode) : List (Nat × Nat) :=
  (List.range mode.height).flatMap fun row =>
    (List.range mode.width).map fun column => (column, row)

end DisplayMode

namespace Display

/-- Whether a pixel is lit and a sprite covers it, which therefore erases it. -/
def erases (display : Display) (x y : Int) (rows : List Int) (place : Nat × Nat) : Bool :=
  display.mode.covered x y rows place.1 place.2 && display.pixel place.1 place.2

/-- A display after a sprite was drawn on it, and the answer whether it collided. -/
structure Drawn (display : Display) (x y : Int) (rows : List Int) (collided : Bool)
    (drawn : Display) : Prop where
  /-- The size is kept. -/
  mode : drawn.mode = display.mode
  /-- A pixel is turned over if the sprite covers it, and is kept otherwise. -/
  pixels : ∀ column row : Int, drawn.pixel column row =
    (display.pixel column row ^^ display.mode.covered x y rows column row)
  /-- The sprite collided if it erased some pixel. -/
  collided : collided = true ↔ ∃ place ∈ display.mode.places, display.erases x y rows place = true
  /-- Covered pixels become lit, but for those that were lit and are erased. -/
  lit : (drawn.litCount : Int) = display.litCount +
    display.mode.places.countP (fun place => display.mode.covered x y rows place.1 place.2) -
      2 * display.mode.places.countP (display.erases x y rows)
  /-- A display with a changed pixel has to be presented. -/
  changed : (∃ column row, drawn.pixel column row ≠ display.pixel column row) → drawn.dirty = true
  /-- A display without a changed pixel has to be presented if it had to be before. -/
  unchanged : (∀ column row, drawn.pixel column row = display.pixel column row) →
    drawn.dirty = display.dirty

end Display

/-- A run of bytes in memory, as the rows of a sprite. -/
def Board.spriteBytes (board : Board) (address : Int) (count : Nat) : List Int :=
  (List.range count).map fun offset => (board.memory.byteAt (address.toNat + offset)).val

/-- What drawing does, by itself and as an instruction on the registers of a machine. -/
structure Board.SpriteLaw (board : Board) (registers : Registers) : Prop where
  /-- A sprite no taller than the display is drawn by exclusive or. -/
  drawn : ∀ (x y : Int) (rows : List Int), rows.length ≤ board.display.mode.height →
    board.display.Drawn x y rows (board.display.draw x y rows).1 (board.display.draw x y rows).2
  /-- An instruction draws the bytes at the address register, and sets the flag on a collision. -/
  executed : registers.v.length = 16 → ∀ x y count : Nibble,
    (∀ address, registers.i ≤ address ∧ address < registers.i + count.val →
      Access.read.Permits address) →
    let rows := board.spriteBytes registers.i count.val
    let column := registers.reg x % board.display.mode.width
    let row := registers.reg y % board.display.mode.height
    ∃ result drawn,
      execute (Word.ofNibbles 0xD x y count) registers board =
        (.ok result, { board with display := drawn }) ∧
      board.display.Drawn column row rows (result.reg 15 == 1) drawn ∧
      (result.reg 15 = 1 ↔ ∃ place ∈ board.display.mode.places,
        board.display.erases column row rows place = true) ∧
      (result.reg 15 = 0 ∨ result.reg 15 = 1) ∧
      ∀ other : Nibble, other ≠ 15 → result.reg other = registers.reg other

/-! ### Pixels and their coordinates -/

namespace DisplayMode

variable {mode : DisplayMode}

/-- A sprite row fits into every display. -/
theorem eight_le_width (mode : DisplayMode) : 8 ≤ mode.width := by
  cases mode <;> decide

/-- A display has more rows than the tallest sprite of an instruction. -/
theorem sixteen_le_height (mode : DisplayMode) : 16 ≤ mode.height := by
  cases mode <;> decide

/-- A place of a grid that is counted row by row determines its row and its column. -/
theorem row_major_unique {width row column other place : Nat} (inside : column < width)
    (within : place < width) (same : row * width + column = other * width + place) :
    column = place ∧ row = other := by
  -- The place divided by the width is the row, and the column is left.
  have positive : 0 < width := by omega
  have columns := congrArg (· % width) same
  have rows := congrArg (· / width) same
  simp only [Nat.mul_add_mod_self_right, Nat.mod_eq_of_lt inside,
    Nat.mod_eq_of_lt within] at columns
  simp only [Nat.mul_comm _ width, Nat.mul_add_div positive, Nat.div_eq_of_lt inside,
    Nat.div_eq_of_lt within] at rows
  exact ⟨columns, rows⟩

/-- Coordinates stand for the same pixel if they differ by whole widths and heights. -/
theorem cell_eq_iff {x y column row : Int} :
    mode.cell x y = mode.cell column row ↔
      x % mode.width = column % mode.width ∧ y % mode.height = row % mode.height := by
  -- Row and column can be read off the index of a cell, as both are remainders.
  have width := Int.natCast_pos.mpr mode.width_pos
  have height := Int.natCast_pos.mpr mode.height_pos
  constructor
  · intro same
    have left := Int.emod_nonneg x (Int.ne_of_gt width)
    have right := Int.emod_nonneg column (Int.ne_of_gt width)
    have above := Int.emod_nonneg y (Int.ne_of_gt height)
    have below := Int.emod_nonneg row (Int.ne_of_gt height)
    have first := Int.emod_lt_of_pos x width
    have second := Int.emod_lt_of_pos column width
    have unique := row_major_unique (by omega) (by omega) (Fin.val_eq_of_eq same)
    omega
  · intro same
    simp only [cell, same.1, same.2]

/-- A pixel within the display has its place row by row. -/
theorem cell_val {column row : Nat} (inside : column < mode.width) (within : row < mode.height) :
    (mode.cell column row).val = row * mode.width + column := by
  -- Nothing wraps around.
  have across : (column : Int) % mode.width = column :=
    Int.emod_eq_of_lt (by omega) (by omega)
  have down : (row : Int) % mode.height = row :=
    Int.emod_eq_of_lt (by omega) (by omega)
  simp only [cell, across, down, Int.toNat_natCast]

/-- Counting row by row counts every place once. -/
theorem range_mul (rows width : Nat) :
    ((List.range rows).flatMap fun row =>
      (List.range width).map fun column => row * width + column) = List.range (rows * width) := by
  -- The last row is as wide as the others.
  induction rows with
  | zero => simp
  | succ rows ih =>
    rw [List.range_succ, List.flatMap_append, ih, List.flatMap_singleton, Nat.succ_mul,
      List.range_add]

/-- The pixels of a grid are listed in the order of their places. -/
theorem places_cells (mode : DisplayMode) :
    (mode.places.map fun place => mode.cell place.1 place.2) = List.finRange _ := by
  -- It is enough to compare the numbers of the places.
  refine (List.map_inj_right fun _ _ same => Fin.ext same).mp ?_
  have numbers : (List.finRange (mode.width * mode.height)).map Fin.val =
      List.range (mode.height * mode.width) := by
    apply List.ext_getElem <;> simp [Nat.mul_comm]
  rw [numbers, ← range_mul, places, List.map_flatMap, List.map_flatMap, List.flatMap_def,
    List.flatMap_def]
  refine congrArg List.flatten (List.map_congr_left ?_)
  intro row within
  rw [List.map_map, List.map_map]
  refine List.map_congr_left ?_
  intro column inside
  exact cell_val (List.mem_range.mp inside) (List.mem_range.mp within)

/-- Every pixel has coordinates within the display. -/
theorem exists_place (cell : mode.Cell) :
    ∃ place ∈ mode.places, mode.cell place.1 place.2 = cell := by
  -- All pixels are listed.
  have listed : cell ∈ mode.places.map fun place => mode.cell place.1 place.2 := by
    rw [places_cells]
    exact List.mem_finRange cell
  simpa using listed

end DisplayMode

/-! ### Pixels that a sprite flips -/

/-- One of the first numbers is told apart by a test only if it is one of them. -/
theorem countP_range_single (count single : Nat) (test : Nat → Bool) :
    (List.range count).countP (fun number => number == single && test number) =
      (decide (single < count) && test single).toNat := by
  induction count with
  | zero => rfl
  | succ count ih =>
    -- The last number is the one, or comes behind it, or before it.
    rw [List.range_succ, List.countP_append, ih, List.countP_singleton]
    rcases Nat.lt_trichotomy count single with below | rfl | above
    · have before : ¬single < count := by omega
      have behind : ¬single < count + 1 := by omega
      have apart : (count == single) = false := by simp; omega
      simp [before, behind, apart]
    · cases test count <;> simp
    · have before : single < count + 1 := by omega
      have apart : (count == single) = false := by simp; omega
      simp [above, before, apart]

/-- The bit of a column is found by dividing by a power of two. -/
theorem spriteBit_eq (bits : Int) (column : Nat) :
    spriteBit bits column = (bits / (Nat.pow 2 (7 - column) : Nat) % 2 == 1) := by
  -- A shift to the right divides, rounding down also below zero.
  rw [spriteBit, Int.shiftRight_eq_div_pow]
  rfl

/-- A place is reached in some steps, fewer than there are places, if it is that far away. -/
theorem wraps_to_iff (x target : Int) {size : Int} {distance : Nat} (inside : distance < size) :
    (x + distance) % size = target % size ↔ distance = ((target - x) % size).toNat := by
  -- The distance is the remainder of itself.
  have positive := Int.emod_nonneg (target - x) (b := size) (by omega)
  have moved : x + distance - x = distance := by omega
  rw [← Int.emod_sub_cancel_right x, moved, Int.emod_eq_of_lt (by omega) inside]
  omega

/-- One step on, a place is one step nearer, or else at the greatest distance. -/
theorem distance_behind {size x target : Int} (positive : 0 < size) :
    ((target - (x + 1)) % size).toNat =
      if ((target - x) % size).toNat = 0 then (size - 1).toNat
      else ((target - x) % size).toNat - 1 := by
  have nonneg := Int.emod_nonneg (target - x) (Int.ne_of_gt positive)
  have below := Int.emod_lt_of_pos (target - x) positive
  have step : (target - (x + 1)) % size = ((target - x) % size - 1) % size := by
    rw [Int.emod_sub_emod]
    exact congrArg (· % size) (by omega)
  rw [step]
  split
  · -- The place is left behind, and is found again behind all the others.
    rename_i here
    have start : (target - x) % size - 1 + size = size - 1 := by omega
    rw [← Int.add_emod_right, start, Int.emod_eq_of_lt (by omega) (by omega)]
  · rw [Int.emod_eq_of_lt (by omega) (by omega)]
    omega

variable {mode : DisplayMode}

/-- A row of a sprite flips the pixels of its set bits once. -/
theorem count_rowFootprint (x y bits column row : Int) :
    (rowFootprint mode x y bits).count (mode.cell column row) =
      (decide (((row - y) % mode.height).toNat = 0) &&
        (decide (((column - x) % mode.width).toNat < 8) &&
          spriteBit bits ((column - x) % mode.width).toNat)).toNat := by
  have wide := mode.eight_le_width
  have high := Int.natCast_pos.mpr mode.height_pos
  -- A bit is that of the pixel if its row is and it is as far to the right.
  have level : y % mode.height = row % mode.height ↔ ((row - y) % mode.height).toNat = 0 := by
    have zero : ((0 : Nat) : Int) < mode.height := high
    have first := wraps_to_iff y row zero
    rw [Int.natCast_zero, Int.add_zero] at first
    omega
  have hits : ∀ bit ∈ List.range 8,
      ((mode.cell (x + (bit : Nat)) y == mode.cell column row) && spriteBit bits bit) =
        (bit == ((column - x) % mode.width).toNat &&
          (decide (((row - y) % mode.height).toNat = 0) && spriteBit bits bit)) := by
    intro bit inside
    have inside := List.mem_range.mp inside
    have within : (bit : Int) < mode.width := by omega
    have across := wraps_to_iff x column within
    rw [← Bool.and_assoc]
    refine congrArg (· && spriteBit bits bit) ?_
    rw [Bool.eq_iff_iff, Bool.and_eq_true, beq_iff_eq, beq_iff_eq, decide_eq_true_iff,
      DisplayMode.cell_eq_iff, across, level]
  rw [rowFootprint, List.count_eq_countP, List.countP_map, List.countP_filter]
  refine (List.countP_congr fun bit inside => by rw [Function.comp, hits bit inside]).trans ?_
  rw [countP_range_single]
  refine congrArg Bool.toNat ?_
  rw [← Bool.and_assoc, ← Bool.and_assoc, Bool.and_comm (decide _) (decide _)]

/-- A sprite no taller than the display flips the pixels that it covers, each of them once. -/
theorem count_footprint {rows : List Int} (fits : rows.length ≤ mode.height)
    (x y column row : Int) :
    (footprint mode x y rows).count (mode.cell column row) =
      (mode.covered x y rows column row).toNat := by
  have high := Int.natCast_pos.mpr mode.height_pos
  induction rows generalizing y with
  | nil => simp [footprint, DisplayMode.covered]
  | cons bits rest ih =>
    rw [List.length_cons] at fits
    rw [footprint, List.count_append, count_rowFootprint, ih (by omega), DisplayMode.covered,
      DisplayMode.covered, distance_behind high]
    cases down : ((row - y) % mode.height).toNat with
    | zero =>
      -- The pixel lies in the first row, and the rest is too short to come back to it.
      have short : ¬mode.height - 1 < rest.length := by omega
      simp [short, spriteBit_eq]
    | succ down => simp

/-- A sprite no taller than the display flips exactly the pixels that it covers. -/
theorem mem_footprint {rows : List Int} (fits : rows.length ≤ mode.height)
    (x y column row : Int) :
    mode.cell column row ∈ footprint mode x y rows ↔ mode.covered x y rows column row = true := by
  -- A pixel that is flipped is flipped once.
  rw [← List.count_pos_iff, count_footprint fits]
  cases mode.covered x y rows column row <;> simp

/-- A sprite no taller than the display flips no pixel twice. -/
theorem nodup_footprint {rows : List Int} (fits : rows.length ≤ mode.height) (x y : Int) :
    (footprint mode x y rows).Nodup := by
  -- A cell is in the footprint once or not at all.
  rw [List.nodup_iff_count]
  intro cell
  obtain ⟨place, -, rfl⟩ := DisplayMode.exists_place cell
  rw [count_footprint fits]
  exact Bool.toNat_le _

/-- Pixels that are all different collide if one of them was lit before the first flip. -/
theorem Grid.flipAll_collided {cells : List mode.Cell} (distinct : cells.Nodup)
    (grid : Grid mode) :
    (grid.flipAll cells).1 = true ↔ ∃ cell ∈ cells, grid.lit cell = true := by
  induction cells generalizing grid with
  | nil => simp [flipAll]
  | cons cell rest ih =>
    obtain ⟨absent, distinct⟩ := List.nodup_cons.mp distinct
    -- The flip of the first pixel is not seen at the others.
    have kept : ∀ other ∈ rest, (grid.flip cell).lit other = grid.lit other := by
      intro other listed
      have apart : (cell == other) = false := by
        rw [beq_eq_false_iff_ne]
        intro same
        exact absent (same ▸ listed)
      rw [lit_flip, apart, Bool.xor_false]
    have later : ((grid.flip cell).flipAll rest).1 = true ↔
        ∃ other ∈ rest, grid.lit other = true := by
      rw [ih distinct]
      refine exists_congr fun other => and_congr_right fun listed => ?_
      rw [kept other listed]
    simp only [flipAll, Bool.or_eq_true, later, List.mem_cons, exists_eq_or_imp]

/-- Lit pixels are counted at their places. -/
theorem Display.litCount_eq (display : Display) :
    display.litCount = display.mode.places.countP fun place => display.pixel place.1 place.2 := by
  -- The cells are the places in another order.
  have listed : display.grid.toList = (List.finRange _).map display.grid.lit := by
    apply List.ext_getElem
    · simp
    · intro place here there
      simp [Grid.lit]
  rw [litCount, listed, ← display.mode.places_cells, List.map_map, List.count_eq_countP,
    List.countP_map]
  refine List.countP_congr ?_
  intro place _
  simp [pixel]

/-- Two properties of which exactly one is to hold are counted apart. -/
theorem countP_xor {α : Type} (entries : List α) (first second : α → Bool) :
    entries.countP (fun entry => first entry ^^ second entry) +
        2 * entries.countP (fun entry => second entry && first entry) =
      entries.countP first + entries.countP second := by
  -- An entry of both is counted on neither side of the exclusive or.
  induction entries with
  | nil => rfl
  | cons entry rest ih =>
    simp only [List.countP_cons]
    cases first entry <;> cases second entry <;> simp <;> omega

/-! ### Draws -/

/-- A sprite no taller than the display is drawn by exclusive or. -/
theorem Display.draw_drawn (display : Display) (x y : Int) {rows : List Int}
    (fits : rows.length ≤ display.mode.height) :
    display.Drawn x y rows (display.draw x y rows).1 (display.draw x y rows).2 := by
  -- A pixel is flipped once if it is covered, and else not at all.
  have pixels : ∀ column row : Int, (display.draw x y rows).2.pixel column row =
      (display.pixel column row ^^ display.mode.covered x y rows column row) := by
    intro column row
    have counted := display.pixel_drawAll [⟨x, y, rows⟩] column row
    rw [List.flatMap_singleton, Stamp.cells, count_footprint fits] at counted
    refine counted.trans (congrArg (display.pixel column row ^^ ·) ?_)
    cases display.mode.covered x y rows column row <;> rfl
  have empty : (display.draw x y rows).2.dirty =
      (display.dirty || !(footprint display.mode x y rows).isEmpty) := rfl
  refine { mode := rfl, pixels := pixels, collided := ?_, lit := ?_, changed := ?_,
           unchanged := ?_ }
  · refine (Grid.flipAll_collided (nodup_footprint fits x y) display.grid).trans ?_
    simp only [erases, Bool.and_eq_true]
    constructor
    · intro collided
      obtain ⟨cell, flipped, lit⟩ := collided
      obtain ⟨place, listed, rfl⟩ := DisplayMode.exists_place cell
      exact ⟨place, listed, (mem_footprint fits x y _ _).mp flipped, lit⟩
    · intro erased
      obtain ⟨place, -, covered, lit⟩ := erased
      exact ⟨_, (mem_footprint fits x y _ _).mpr covered, lit⟩
  · -- The grids are compared pixel by pixel.
    have counted := countP_xor display.mode.places
      (fun place => display.pixel place.1 place.2)
      (fun place => display.mode.covered x y rows place.1 place.2)
    have after : (display.draw x y rows).2.litCount = display.mode.places.countP fun place =>
        display.pixel place.1 place.2 ^^ display.mode.covered x y rows place.1 place.2 := by
      rw [litCount_eq]
      exact List.countP_congr fun place _ => by rw [pixels]
    have erased : display.mode.places.countP (display.erases x y rows) =
        display.mode.places.countP fun place =>
          display.mode.covered x y rows place.1 place.2 && display.pixel place.1 place.2 := rfl
    rw [after, litCount_eq, erased]
    omega
  · intro different
    obtain ⟨column, row, changed⟩ := different
    -- A pixel that changed was flipped.
    have covered : display.mode.covered x y rows column row = true := by
      rw [pixels] at changed
      cases same : display.mode.covered x y rows column row with
      | true => rfl
      | false => exact absurd (by rw [same, Bool.xor_false]) changed
    have flipped := (mem_footprint fits x y _ _).mpr covered
    rw [empty, List.isEmpty_eq_false_iff.mpr (List.ne_nil_of_mem flipped), Bool.not_false,
      Bool.or_true]
  · intro same
    -- A pixel that was flipped has changed.
    have none : footprint display.mode x y rows = [] := by
      refine List.eq_nil_iff_forall_not_mem.mpr fun cell flipped => ?_
      obtain ⟨place, -, rfl⟩ := DisplayMode.exists_place cell
      have covered := (mem_footprint fits x y _ _).mp flipped
      have kept := same place.1 place.2
      rw [pixels, covered, Bool.xor_true] at kept
      simp at kept
    rw [empty, none, List.isEmpty_nil, Bool.not_true, Bool.or_false]

/-! ### The instruction -/

variable {registers : Registers} {board : Board}

/-- A sprite that lies in memory is read, and drawn at wrapped coordinates. -/
theorem Board.spriteAt_permitted (general : registers.v.length = 16) (x y count : Nibble)
    (permitted : ∀ address, registers.i ≤ address ∧ address < registers.i + count.val →
      Access.read.Permits address) :
    board.spriteAt registers x y count = .ok (board.spriteBytes registers.i count.val,
      registers.reg x % board.display.mode.width, registers.reg y % board.display.mode.height) := by
  -- A run that is not empty starts at an address that exists, and is as long as it says.
  have size : (registers.i + count.val).toNat - registers.i.toNat = count.val := by
    by_cases empty : count.val = 0
    · omega
    · have start := (permitted registers.i (by omega)).1
      omega
  have bytes : (board.memory.slice registers.i.toNat (registers.i + count.val).toNat).map
      (fun byte => (byte.val : Int)) = board.spriteBytes registers.i count.val := by
    rw [Memory.slice, size, List.map_map]
    rfl
  rw [spriteAt, board.memory.readBlock_permitted _ _ permitted, Registers.value_of_general general,
    Registers.value_of_general general]
  simp only [ok_bind, pure_eq_ok, bytes]

/--
Drawing turns over exactly the pixels under the set bits of a sprite, and knows what it erased.

Coordinates wrap around both edges and bits above the eighth are not drawn.
The flag register holds whether one of the pixels was lit before.
-/
theorem sprites_toggle_pixels (registers : Registers) (board : Board) :
    board.SpriteLaw registers := by
  refine ⟨fun x y rows fits => board.display.draw_drawn x y fits, ?_⟩
  intro general x y count permitted rows column row
  -- An instruction draws fifteen rows at most.
  have fits : rows.length ≤ board.display.mode.height := by
    have high := board.display.mode.sixteen_le_height
    simp only [rows, Board.spriteBytes, List.length_map, List.length_range]
    omega
  have drawn := board.display.draw_drawn column row fits
  -- Whether it collided is stored in the flag register, and the display is handed on.
  generalize answered : board.display.draw column row rows = answer at drawn
  obtain ⟨collided, display⟩ := answer
  have performed : (Instruction.draw x y count).perform registers board =
      (registers.load 15 collided.toInt, { board with display }) := by
    simp only [Instruction.perform, Instruction.operation, Instruction.fields, Operation.perform,
      Board.spriteAt_permitted general x y count permitted]
    rw [answered]
  have codes : (Word.ofNibbles 0xD x y count).Codes (.draw x y count) := by
    simp [Word.Codes]
  obtain ⟨result, executed, loaded⟩ := Word.Loads.of_perform general codes performed
  -- The flag register holds one or zero.
  have flag : result.reg 15 = collided.toInt := by
    rw [loaded.target]
    cases collided <;> rfl
  have told : (result.reg 15 == 1) = collided := by
    rw [flag]
    cases collided <;> rfl
  refine ⟨result, display, executed, told.symm ▸ drawn, ?_, ?_, loaded.others⟩
  · rw [← drawn.collided, ← told, beq_iff_eq]
  · rw [flag]
    cases collided
    · exact .inl rfl
    · exact .inr rfl

/-- A board with one lit pixel, and with the glyph of zero at the start of memory. -/
def dottedBoard : Board :=
  { emptyBoard with display := (emptyBoard.display.draw 63 30 [0x80]).2 }

/-- Registers that place a sprite at the right edge, two rows above the lower one. -/
def cornered : Registers :=
  { v := 62 :: 94 :: List.replicate 14 7 }

/-- A pixel of the board is lit if it is the dot. -/
theorem pixel_dottedBoard (column row : Int) :
    dottedBoard.display.pixel column row =
      DisplayMode.wide32.covered 63 30 [0x80] column row := by
  -- The dot is drawn on a blank display.
  have fits : ([0x80] : List Int).length ≤ emptyBoard.display.mode.height := by decide
  have drawn := emptyBoard.display.draw_drawn 63 30 fits
  have unlit : emptyBoard.display.pixel column row = false := Display.pixel_blank _ _ _
  refine (drawn.pixels column row).trans ?_
  rw [unlit, Bool.false_xor]
  rfl

/-- A glyph that wraps around both edges erases the dot, and a row of all bits finds it as well. -/
theorem sprites_toggle_pixels_cornered :
    (∃ result drawn, execute 0xD015 cornered dottedBoard =
        (.ok result, { dottedBoard with display := drawn }) ∧
      result.reg 15 = 1 ∧ drawn.pixel 63 30 = false ∧ drawn.pixel 0 30 = true ∧
      drawn.pixel 63 31 = false ∧ drawn.pixel 1 2 = true) ∧
    (dottedBoard.display.draw (-1) (-2) [-1]).1 = true := by
  have general : cornered.v.length = 16 := rfl
  have permitted : ∀ address, cornered.i ≤ address ∧ address < cornered.i + (5 : Nibble).val →
      Access.read.Permits address := by
    intro address inside
    have index : cornered.i = 0 := rfl
    have count : ((5 : Nibble).val : Int) = 5 := rfl
    simp only [Access.Permits]
    omega
  obtain ⟨draws, executes⟩ := sprites_toggle_pixels cornered dottedBoard
  obtain ⟨result, drawn, executed, toggled, flag, -, -⟩ := executes general 0 1 5 permitted
  -- The dot that is erased is in the last but one row, at the right edge.
  have listed : (63, 30) ∈ dottedBoard.display.mode.places := by decide +kernel
  constructor
  · refine ⟨result, drawn, executed, flag.mpr ⟨(63, 30), listed, ?_⟩, ?_, ?_, ?_, ?_⟩
    · rw [Display.erases, pixel_dottedBoard]
      decide
    all_goals
      rw [toggled.pixels, pixel_dottedBoard]
      decide
  · refine (draws (-1) (-2) [-1] (by decide)).collided.mpr ⟨(63, 30), listed, ?_⟩
    rw [Display.erases, pixel_dottedBoard]
    decide

end Chip8
