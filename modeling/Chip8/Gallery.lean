/-! A gallery of short assembly programs. -/

namespace Chip8

/-- Adds the numbers from one to ten. -/
def sumToTen : List String :=
  [ "    LD V0, 0        ; sum = 0",
    "    LD V1, 1        ; counter = 1",
    "loop:",
    "    ADD V0, V1      ; sum += counter",
    "    ADD V1, 1       ; counter++",
    "    SE V1, 11       ; done after 10",
    "    JP loop",
    "end:",
    "    JP end          ; V0 = 55" ]

/-- Draws the first twelve digits side by side. -/
def hexadecimalDigits : List String :=
  [ "    LD V0, 0        ; digit",
    "    LD V1, 0        ; x",
    "    LD V2, 0        ; y",
    "loop:",
    "    LD F, V0        ; I = glyph for V0",
    "    DRW V1, V2, 5",
    "    ADD V0, 1",
    "    ADD V1, 5",
    "    SE V0, 12",
    "    JP loop",
    "end:",
    "    JP end" ]

/-- Draws the decimal digits of a number. -/
def decimalOf156 : List String :=
  [ "    LD V0, 156",
    "    LD I, digits",
    "    LD B, V0        ; 1, 5, 6 at I..I+2",
    "    LD V2, [I]      ; V0=1 V1=5 V2=6",
    "    LD V3, 0        ; x",
    "    LD V4, 0        ; y",
    "    LD F, V0",
    "    DRW V3, V4, 5",
    "    ADD V3, 5",
    "    LD F, V1",
    "    DRW V3, V4, 5",
    "    ADD V3, 5",
    "    LD F, V2",
    "    DRW V3, V4, 5",
    "end:",
    "    JP end",
    "digits:",
    "    DB 0, 0, 0" ]

/-- Doubles a number twice by a subroutine. -/
def subroutine : List String :=
  [ "    LD V0, 7",
    "    CALL double",
    "    CALL double     ; V0 = 28",
    "end:",
    "    JP end",
    "double:",
    "    ADD V0, V0",
    "    RET" ]

/-- Flips random pixels. -/
def randomDots : List String :=
  [ "    LD I, dot",
    "    LD V2, 20       ; count",
    "loop:",
    "    RND V0, 63",
    "    RND V1, 31",
    "    DRW V0, V1, 1",
    "    ADD V2, 255     ; count--",
    "    SE V2, 0",
    "    JP loop",
    "end:",
    "    JP end",
    "dot:",
    "    DB 0x80" ]

/-- The programs of the gallery by title, the last of which is blank. -/
def gallery : List (String × List String) :=
  [ ("Sum 1-10", sumToTen),
    ("Hex Digits", hexadecimalDigits),
    ("BCD of 156", decimalOf156),
    ("Subroutine", subroutine),
    ("Random Dots", randomDots),
    ("Custom", []) ]

/-- The source text of a title, which is empty for a title that is not in the gallery. -/
def galleryProgram (title : String) : String :=
  "\n".intercalate ((gallery.lookup title).getD [])

end Chip8
