/-! White space: which characters are blank, and how text is trimmed and cut at them. -/

namespace Chip8

/-- The code points of white space. -/
def blankCodes : List Nat :=
  [ 0x9, 0xA, 0xB, 0xC, 0xD, 0x1C, 0x1D, 0x1E, 0x1F, 0x20, 0x85, 0xA0, 0x1680, 0x2000, 0x2001,
    0x2002, 0x2003, 0x2004, 0x2005, 0x2006, 0x2007, 0x2008, 0x2009, 0x200A, 0x2028, 0x2029, 0x202F,
    0x205F, 0x3000 ]

/-- Whether a character is white space. -/
def isBlank (char : Char) : Bool :=
  blankCodes.contains char.toNat

/-- Text without the blanks at its start. -/
def trimStart (text : List Char) : List Char :=
  text.dropWhile isBlank

/-- Text without the blanks at its end. -/
def trimEnd (text : List Char) : List Char :=
  (text.reverse.dropWhile isBlank).reverse

/-- Text without the blanks at its ends. -/
def trim (text : List Char) : List Char :=
  trimEnd (trimStart text)

/-- The pieces of a text between the places of a separator, of which there is one at least. -/
def splitAt (separator : Char) : List Char → List (List Char)
  | [] => [[]]
  | char :: rest =>
    if char = separator then [] :: splitAt separator rest
    else
      match splitAt separator rest with
      | [] => [[char]]
      | piece :: pieces => (char :: piece) :: pieces

/-- There is always a piece. -/
theorem splitAt_ne_nil (separator : Char) (text : List Char) : splitAt separator text ≠ [] := by
  -- Even an empty text is one part.
  cases text with
  | nil => simp [splitAt]
  | cons char rest =>
    simp only [splitAt]
    split
    · simp
    · split <;> simp

end Chip8
