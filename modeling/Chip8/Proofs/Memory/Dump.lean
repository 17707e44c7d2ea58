import Chip8.Proofs.Memory
import Chip8.Proofs.Text.Numeral

/-!
A dump of memory is read back as the bytes that it shows.

The reader knows how the text is laid out and nothing of the memory: a line has an address, two
blanks, and fields of two digits.
-/

namespace Chip8

/-! ### Reading a dump -/

/-- A line of a dump: the text of its address, and the bytes of its fields. -/
structure DumpLine where
  address : List Char
  bytes : List Byte

/-- The byte of a field, which has two digits. -/
def byteField? (field : List Char) : Option Byte :=
  if field.length = 2 then (numeral? 16 field).map fun (value : Nat) => .ofInt value else none

/-- Two blanks end the address, and one blank stands between two fields. -/
def DumpLine.read? (line : List Char) : Option DumpLine :=
  match splitAt ' ' line with
  | address :: [] :: fields => (fields.mapM byteField?).map fun bytes => { address, bytes }
  | _ => none

/-- The lines of a text, of which an empty text has none. -/
def textLines (text : List Char) : List (List Char) :=
  if text.isEmpty then [] else splitAt '\n' text

/-- All lines of a dump, unless one of them is laid out in another way. -/
def readDump? (dump : String) : Option (List DumpLine) :=
  (textLines dump.toList).mapM DumpLine.read?

/-- Texts that are read one by one are read as a list. -/
theorem mapM_map_of_read {α β γ : Type} {read : β → Option γ} {write : α → β} {shown : α → γ}
    {inputs : List α} (each : ∀ input ∈ inputs, read (write input) = some (shown input)) :
    (inputs.map write).mapM read = some (inputs.map shown) := by
  -- The first text is read, and the others behind it.
  induction inputs with
  | nil => rfl
  | cons input rest ih =>
    have first := each input List.mem_cons_self
    have others := ih fun other listed => each other (List.mem_cons_of_mem _ listed)
    simp [first, others]

/-- Lines that were joined are found again, if none of them is empty. -/
theorem textLines_intercalate {lines : List (List Char)} (filled : [] ∉ lines)
    (whole : ∀ line ∈ lines, '\n' ∉ line) :
    textLines (List.intercalate ['\n'] lines) = lines := by
  cases lines with
  | nil => rfl
  | cons first rest =>
    -- The first line has a character, so the text is not empty.
    have started : (List.intercalate ['\n'] (first :: rest)).isEmpty = false := by
      have opening : first ≠ [] := (List.ne_and_not_mem_of_not_mem_cons filled).1.symm
      cases rest <;> simp [opening]
    rw [textLines, started, if_neg (by decide), splitAt_intercalate whole (List.cons_ne_nil _ _)]

/-! ### Lines as they are written -/

/-- The field of a byte is read as the byte. -/
theorem byteField?_hexDigits (byte : Byte) : byteField? (hexDigits 2 byte.val) = some byte := by
  -- The eight binary digits of a byte are two hexadecimal digits.
  have narrow : hexWidth byte.val ≤ 2 := by
    by_cases zero : byte.val = 0
    · rw [zero]
      decide
    · have binary : byte.val.log2 < 8 := (Nat.log2_lt zero).mpr byte.isLt
      unfold hexWidth
      omega
  have width : (hexDigits 2 byte.val).length = 2 := by
    rw [hexDigits, hexFixed_length]
    omega
  have same : Byte.ofInt byte.val = byte := by
    apply Fin.ext
    simp only [Byte.ofInt]
    omega
  rw [byteField?, if_pos width, numeral?_hexDigits, Option.map_some, same]

/-- Hexadecimal text has no separator of fields or lines in it. -/
theorem not_mem_hexDigits {separator : Char} (blank : isBlank separator = true)
    (width value : Nat) : separator ∉ hexDigits width value := by
  -- A separator is blank, and no digit is.
  intro member
  have visible := hexFixed_visible member
  rw [blank] at visible
  cases visible

/-- The text of a line: an address, two blanks, and bytes with one blank between them. -/
def lineText (address : Nat) (bytes : List Byte) : List Char :=
  hexDigits 3 address ++ ' ' :: ' ' ::
    List.intercalate [' '] (bytes.map fun byte => hexDigits 2 byte.val)

/-- A line has no line break in it. -/
theorem newline_not_mem_lineText (address : Nat) (bytes : List Byte) :
    '\n' ∉ lineText address bytes := by
  -- All characters are digits or the blanks between them.
  intro member
  simp only [lineText, List.mem_append, List.mem_cons] at member
  rcases member with digit | same | same | listed
  · exact not_mem_hexDigits (by decide) 3 address digit
  · cases same
  · cases same
  · rcases mem_intercalate listed with put | ⟨field, written, inside⟩
    · cases List.mem_singleton.mp put
    · obtain ⟨byte, -, rfl⟩ := List.mem_map.mp written
      exact not_mem_hexDigits (by decide) 2 byte.val inside

/-- A line that shows a byte at least is read as its address and its bytes. -/
theorem DumpLine.read?_lineText (address : Nat) {bytes : List Byte} (filled : bytes ≠ []) :
    DumpLine.read? (lineText address bytes) =
      some { address := paddedHex 3 address, bytes := bytes } := by
  have fields : splitAt ' ' (List.intercalate [' '] (bytes.map fun byte => hexDigits 2 byte.val)) =
      bytes.map fun byte => hexDigits 2 byte.val := by
    refine splitAt_intercalate ?_ (by simpa using filled)
    intro piece listed
    obtain ⟨byte, -, rfl⟩ := List.mem_map.mp listed
    exact not_mem_hexDigits (by decide) 2 byte.val
  -- The first blank ends the address, and nothing stands in front of the second.
  have pieces : splitAt ' ' (lineText address bytes) =
      hexDigits 3 address :: [] :: bytes.map fun byte => hexDigits 2 byte.val := by
    rw [lineText, splitAt_append, splitAt_of_not_mem (not_mem_hexDigits (by decide) 3 address),
      splitAt, if_pos rfl, fields, List.singleton_append]
  have read : (bytes.map fun byte => hexDigits 2 byte.val).mapM byteField? =
      some (bytes.map id) := mapM_map_of_read fun byte _ => byteField?_hexDigits byte
  rw [List.map_id] at read
  rw [DumpLine.read?, pieces]
  simp only [read, Option.map_some, hexDigits_eq_padded 3 address]

/-! ### Rows of a memory -/

namespace Memory

section Rows

variable (memory : Memory) (start count : Nat)

/-- The bytes of a row of a range: sixteen, or those that are left of it. -/
def rowBytes (row : Nat) : List Byte :=
  memory.slice (start + 16 * row) (start + min (16 * row + 16) count)

/-- A row has sixteen bytes unless the range ends in it. -/
theorem rowBytes_length (row : Nat) :
    (memory.rowBytes start count row).length = min 16 (count - 16 * row) := by
  -- The row ends with the range, or sixteen addresses behind its start.
  rw [rowBytes, slice_length]
  omega

/-- The first rows together are a slice, which ends with the range if they reach so far. -/
theorem flatMap_rowBytes (rows : Nat) :
    (List.range rows).flatMap (memory.rowBytes start count) =
      memory.slice start (start + min (16 * rows) count) := by
  -- One more row is appended to the slice of the rows before it.
  induction rows with
  | zero => simp [slice]
  | succ rows ih =>
    rw [List.range_succ, List.flatMap_append, ih, List.flatMap_singleton, rowBytes, slice_eq_map,
      slice_eq_map, slice_eq_map, ← List.map_append]
    by_cases inside : 16 * rows ≤ count
    · -- The next row begins where those before it end.
      have behind : start + min (16 * rows) count - start = 16 * rows := by omega
      rw [behind, List.range'_append_1]
      congr 2
      omega
    · -- The range has ended in an earlier row.
      have none : start + min (16 * rows + 16) count - (start + 16 * rows) = 0 := by omega
      rw [none, List.range'_zero, List.append_nil]
      congr 2
      omega

/-- A row that begins inside the range is written as a line. -/
theorem toList_hexdumpRow {row : Nat} (fits : start + count ≤ memorySize)
    (inside : 16 * row < count) :
    (memory.hexdumpRow (start + 16 * row) (start + count)).toList =
      lineText (start + 16 * row) (memory.rowBytes start count row) := by
  -- The address and both ends of the row are natural numbers within memory.
  have address : (start + 16 * row : Int) = (start + 16 * row : Nat) := by omega
  have finish : min ((start + 16 * row : Nat) + 16 : Int) (start + count) =
      (start + min (16 * row + 16) count : Nat) := by omega
  have first : position (start + 16 * row : Nat) = start + 16 * row := by
    rw [position, if_neg (by omega)]
    omega
  have behind : position (start + min (16 * row + 16) count : Nat) =
      start + min (16 * row + 16) count := by
    rw [position, if_neg (by omega)]
    omega
  have written (width value : Nat) : (hexText width value).toList = hexDigits width value := by
    rw [hexText, hexSigned, if_neg (by omega), Int.natAbs_natCast, String.toList_ofList]
  have fields : (String.toList ∘ fun byte : Byte => hexText 2 byte.val) =
      fun byte => hexDigits 2 byte.val := funext fun byte => written 2 byte.val
  rw [hexdumpRow, address, finish, first, behind, String.toList_append, String.toList_append,
    String.toList_intercalate, List.map_map, written, fields, List.append_assoc]
  rfl

end Rows

/-! ### Dumps -/

/-- How many bytes a dump shows: those of its range that lie before the end of memory. -/
def dumpedCount (start : Nat) (length : Int) : Nat :=
  (min (start + length) 4096 - start).toNat

/-- How many lines of sixteen bytes a dump needs. -/
def dumpedRows (start : Nat) (length : Int) : Nat :=
  (dumpedCount start length + 15) / 16

section Dumps

variable (memory : Memory) (start : Nat) (length : Int)

/-- The lines of a dump are its rows. -/
theorem textLines_hexdump :
    textLines (memory.hexdump start length).toList =
      (List.range (dumpedRows start length)).map fun row =>
        lineText (start + 16 * row) (memory.rowBytes start (dumpedCount start length) row) := by
  have size : (memorySize : Int) = 4096 := rfl
  -- A range that ends before it starts has no rows, as an empty one.
  have rows : ((min (start + length) 4096 - start + 15) / 16 : Int).toNat =
      dumpedRows start length := by
    rw [dumpedRows, dumpedCount]
    omega
  have lines : ((List.range (dumpedRows start length)).map fun (row : Nat) =>
      memory.hexdumpRow (start + 16 * row) (min (start + length) 4096)).map String.toList =
        (List.range (dumpedRows start length)).map fun row =>
          lineText (start + 16 * row) (memory.rowBytes start (dumpedCount start length) row) := by
    rw [List.map_map]
    refine List.map_congr_left fun row listed => ?_
    -- If there is a row, the range ends behind its start, and is as long as it says.
    rw [List.mem_range, dumpedRows] at listed
    have finish : (min (start + length) 4096 : Int) = start + dumpedCount start length := by
      rw [dumpedCount] at listed ⊢
      omega
    have fits : start + dumpedCount start length ≤ memorySize := by omega
    rw [Function.comp_apply, finish]
    exact memory.toList_hexdumpRow start _ fits (by omega)
  -- No line is empty or broken, so the lines are found again in the text.
  have newline : "\n".toList = ['\n'] := rfl
  rw [hexdump, size, rows, String.toList_intercalate, newline, lines]
  refine textLines_intercalate ?_ ?_
  · simp [lineText]
  · intro line listed
    obtain ⟨row, -, rfl⟩ := List.mem_map.mp listed
    exact newline_not_mem_lineText _ _

/-- A dump is read as its rows. -/
theorem readDump?_hexdump :
    readDump? (memory.hexdump start length) =
      some ((List.range (dumpedRows start length)).map fun row =>
        { address := paddedHex 3 (start + 16 * row)
          bytes := memory.rowBytes start (dumpedCount start length) row }) := by
  rw [readDump?, textLines_hexdump]
  refine mapM_map_of_read fun row listed => ?_
  -- Each row has a byte, because it begins before the range ends.
  have filled : memory.rowBytes start (dumpedCount start length) row ≠ [] := by
    refine List.ne_nil_of_length_pos ?_
    rw [List.mem_range, dumpedRows] at listed
    rw [rowBytes_length]
    omega
  exact DumpLine.read?_lineText _ filled

/-- All rows of a dump together are the bytes of its range. -/
theorem flatMap_dumped :
    (List.range (dumpedRows start length)).flatMap
        (memory.rowBytes start (dumpedCount start length)) =
      (List.range' start (dumpedCount start length)).map memory.byteAt := by
  -- Rows of sixteen reach the end of the range if their number is rounded up.
  have reached : min (16 * dumpedRows start length) (dumpedCount start length) =
      dumpedCount start length := by
    rw [dumpedRows]
    omega
  rw [flatMap_rowBytes, reached, slice_eq_map, Nat.add_sub_cancel_left]

end Dumps

end Memory

/--
A dump shows the bytes of its range, and loses none of them.

There are as few lines as can hold the bytes of the range, sixteen to a line.
Each line begins with the address of its first byte, and the fields of all lines are the bytes of
the range in their order.
-/
theorem hexdump_lossless (memory : Memory) (start : Nat) (length : Int) :
    ∃ lines, readDump? (memory.hexdump start length) = some lines ∧
      lines.length = (Memory.dumpedCount start length + 15) / 16 ∧
      (∀ row (inside : row < lines.length),
        lines[row].address = paddedHex 3 (start + 16 * row)) ∧
      (∀ row (inside : row + 1 < lines.length), lines[row].bytes.length = 16) ∧
      lines.flatMap DumpLine.bytes =
        (List.range' start (Memory.dumpedCount start length)).map memory.byteAt := by
  refine ⟨_, memory.readDump?_hexdump start length, ?_, ?_, ?_, ?_⟩
  · rw [List.length_map, List.length_range, Memory.dumpedRows]
  · intro row inside
    simp only [List.getElem_map, List.getElem_range]
  · -- A line that is not the last one ends before the range does.
    intro row inside
    rw [List.length_map, List.length_range, Memory.dumpedRows] at inside
    simp only [List.getElem_map, List.getElem_range, Memory.rowBytes_length]
    omega
  · rw [List.flatMap_map]
    exact memory.flatMap_dumped start length

-- The second row has what the first one leaves of the range.
example : Memory.fresh.hexdump 0x003 18 =
    "003  90 F0 20 60 20 20 70 F0 10 F0 80 F0 F0 10 F0 10\n013  F0 90" := by
  rfl

end Chip8
