import Chip8.Display

/-!
What is left of a display when pixels have been flipped.

A pixel is turned over as often as it was flipped, so the order of draws does not matter, and a
second draw takes the first one back.
-/

namespace Chip8

namespace Grid

variable {mode : DisplayMode} {first second : List mode.Cell}

/-- Grids with the same lit pixels are the same. -/
theorem ext_lit {one other : Grid mode} (same : ∀ cell, one.lit cell = other.lit cell) :
    one = other :=
  -- Every place of the grid is a pixel.
  Vector.ext fun place inside => same ⟨place, inside⟩

/-- A flip turns its own pixel over and no other. -/
theorem lit_flip (grid : Grid mode) (flipped cell : mode.Cell) :
    (grid.flip flipped).lit cell = (grid.lit cell ^^ (flipped == cell)) := by
  by_cases same : flipped = cell
  · subst same
    simp [flip, lit]
  · -- The pixels are two places of the grid.
    have apart : flipped.val ≠ cell.val := fun equal => same (Fin.ext equal)
    simp [flip, lit, apart, beq_eq_false_iff_ne.mpr same]

/-- Flips in a row are those of the first pixels and then those of the others. -/
theorem flipAll_append (grid : Grid mode) (first second : List mode.Cell) :
    grid.flipAll (first ++ second) =
      ((grid.flipAll first).1 || ((grid.flipAll first).2.flipAll second).1,
        ((grid.flipAll first).2.flipAll second).2) := by
  -- The first pixel is looked at before it is flipped, and then all the others follow.
  induction first generalizing grid with
  | nil => rfl
  | cons cell rest ih =>
    simp only [List.cons_append, flipAll, ih, Bool.or_assoc]

/-- A pixel is turned over if it was flipped an odd number of times. -/
theorem lit_flipAll (grid : Grid mode) (cells : List mode.Cell) (cell : mode.Cell) :
    (grid.flipAll cells).2.lit cell = (grid.lit cell ^^ cells.count cell % 2 == 1) := by
  induction cells generalizing grid with
  | nil => simp [flipAll]
  | cons flipped rest ih =>
    -- One more flip of the pixel changes the parity, and a flip of another does not.
    rw [flipAll, ih, lit_flip, Bool.xor_assoc, List.count_cons]
    refine congrArg (grid.lit cell ^^ ·) ?_
    cases flipped == cell with
    | false => exact Bool.false_xor _
    | true =>
      rcases Nat.mod_two_eq_zero_or_one (rest.count cell) with even | odd
      · have next : (rest.count cell + 1) % 2 = 1 := by omega
        simp [even, next]
      · have next : (rest.count cell + 1) % 2 = 0 := by omega
        simp [odd, next]

/-- The order of flips does not matter. -/
theorem flipAll_perm (same : first.Perm second) (grid : Grid mode) :
    (grid.flipAll first).2 = (grid.flipAll second).2 := by
  -- Every pixel is flipped equally often.
  refine ext_lit fun cell => ?_
  rw [lit_flipAll, lit_flipAll, same.count_eq]

/-- The same flips once more, in any order, take the first ones back. -/
theorem flipAll_undone (same : second.Perm first) (grid : Grid mode) :
    (grid.flipAll (first ++ second)).2 = grid := by
  -- Every pixel is flipped twice as often as by the first flips.
  refine ext_lit fun cell => ?_
  have even : (first.count cell + first.count cell) % 2 = 0 := by omega
  rw [lit_flipAll, List.count_append, same.count_eq, even]
  exact Bool.xor_false _

end Grid

/-! ### Drawing one sprite after another -/

/-- A sprite with the coordinates at which it is drawn. -/
structure Stamp where
  x : Int
  y : Int
  rows : List Int

/-- The pixels that a stamp flips. -/
def Stamp.cells (mode : DisplayMode) (stamp : Stamp) : List mode.Cell :=
  footprint mode stamp.x stamp.y stamp.rows

namespace Display

/-- A display on which stamps were drawn one after another. -/
def drawAll (display : Display) : List Stamp → Display
  | [] => display
  | stamp :: rest => drawAll (display.draw stamp.x stamp.y stamp.rows).2 rest

/-- Drawing stamps flips the pixels of them all. -/
theorem drawAll_eq (display : Display) (stamps : List Stamp) :
    display.drawAll stamps =
      { display with
        grid := (display.grid.flipAll (stamps.flatMap (Stamp.cells display.mode))).2
        dirty := display.dirty || stamps.any fun stamp =>
          !(stamp.cells display.mode).isEmpty } := by
  -- Each draw keeps the mode, and hands its grid on to the draws behind it.
  induction stamps generalizing display with
  | nil => simp [drawAll, Grid.flipAll]
  | cons stamp rest ih =>
    rw [drawAll, ih]
    simp only [draw, List.flatMap_cons, Grid.flipAll_append, Stamp.cells, List.any_cons,
      Bool.or_assoc]

/-- A pixel is turned over if stamps flipped it an odd number of times. -/
theorem pixel_drawAll (display : Display) (stamps : List Stamp) (x y : Int) :
    (display.drawAll stamps).pixel x y = (display.pixel x y ^^
      (stamps.flatMap (Stamp.cells display.mode)).count (display.mode.cell x y) % 2 == 1) := by
  -- The mode is kept, so the pixel is the same place of both grids.
  rw [drawAll_eq]
  exact Grid.lit_flipAll _ _ _

/--
The order of draws does not matter for the picture, and drawing all once more takes it back.

Sprites may be taller than the display, so that one draw flips a pixel several times.
-/
theorem draws_commute_and_cancel (display : Display) {stamps others : List Stamp}
    (same : others.Perm stamps) :
    display.drawAll others = display.drawAll stamps ∧
      display.drawAll (stamps ++ others) =
        { display with dirty := (display.drawAll stamps).dirty } := by
  -- The pixels of permuted stamps are permuted.
  have cells := same.flatMap_right (Stamp.cells display.mode)
  constructor
  · rw [drawAll_eq, drawAll_eq, Grid.flipAll_perm cells, same.any_eq]
  · rw [drawAll_eq, drawAll_eq, List.flatMap_append, Grid.flipAll_undone cells,
      List.any_append, same.any_eq, Bool.or_self]

/-- A blank display has no lit pixel. -/
theorem pixel_blank (mode : DisplayMode) (x y : Int) : (blank mode).pixel x y = false :=
  Vector.getElem_replicate _

/-- A column one row taller than the smallest display, so that it flips its first pixel twice. -/
def tallColumn : Stamp :=
  ⟨3, -2, List.replicate 33 0x80⟩

/-- Two rows that cross the left edge and the column. -/
def crossBar : Stamp :=
  ⟨-2, 5, [0xFF, 0xFF]⟩

/-- A sprite that overlaps itself and another commutes with it, and two draws of each cancel. -/
theorem draws_commute_and_cancel_tall :
    (blank .wide32).drawAll [crossBar, tallColumn] =
        (blank .wide32).drawAll [tallColumn, crossBar] ∧
      (blank .wide32).drawAll [tallColumn, crossBar, crossBar, tallColumn] =
        { blank .wide32 with dirty := true } ∧
      ((blank .wide32).drawAll [tallColumn]).pixel 3 30 = false ∧
      ((blank .wide32).drawAll [tallColumn]).pixel 3 5 = true ∧
      ((blank .wide32).drawAll [tallColumn, crossBar]).pixel 3 5 = false := by
  have swapped : [crossBar, tallColumn].Perm [tallColumn, crossBar] := .swap _ _ _
  obtain ⟨commute, cancel⟩ := draws_commute_and_cancel (blank .wide32) swapped
  -- Only the first draws are looked at, pixel by pixel.
  have changed : ((blank .wide32).drawAll [tallColumn, crossBar]).dirty = true := by
    rw [drawAll_eq]
    decide
  rw [changed] at cancel
  refine ⟨commute, cancel, ?_, ?_, ?_⟩ <;>
  · rw [pixel_drawAll, pixel_blank]
    decide

end Display

end Chip8
