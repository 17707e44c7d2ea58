import Chip8.Proofs.Text.Blank
import Chip8.Text.Uppercase

/-! Upper-casing leaves visible text visible, whatever script it is written in. -/

namespace Chip8

/-- A character with a code that is not blank is visible. -/
theorem isBlank_ofNat {code : Nat} (other : blankCodes.contains code = false) :
    isBlank (Char.ofNat code) = false := by
  by_cases valid : code.isValidChar
  · rw [Char.ofNat, dif_pos valid]
    exact other
  · -- A number that is no code stands for the character of the code zero.
    rw [Char.ofNat, dif_neg valid]
    decide

/-- No run of characters is moved onto a blank. -/
theorem visible_of_covers {run : CaseRun} (listed : run ∈ caseRuns) {code : Nat}
    (covered : run.covers code = true) :
    blankCodes.contains ((code : Int) + run.offset).toNat = false := by
  -- The code that would be moved onto a blank lies outside the run.
  have table : ∀ run ∈ caseRuns, ∀ blank ∈ blankCodes,
      run.covers ((blank : Int) - run.offset).toNat = false := by decide +kernel
  have positive : ∀ blank ∈ blankCodes, 0 < blank := by decide
  apply Bool.eq_false_iff.mpr
  intro blank
  have member := List.contains_iff_mem.mp blank
  have above := positive _ member
  have moved := table run listed _ member
  have back : (((((code : Int) + run.offset).toNat : Nat) : Int) - run.offset).toNat = code := by
    omega
  rw [back, covered] at moved
  cases moved

/-- The upper-case form of a visible character is visible text. -/
theorem upperChar_visible {char : Char} (visible : isBlank char = false) :
    upperChar char ≠ [] ∧ ∀ upper ∈ upperChar char, isBlank upper = false := by
  unfold upperChar
  split
  · -- There are 128 characters to look at.
    rename_i short
    have table : isBlank char = false → isBlank char.toUpper = false :=
      of_sevenBit short (by decide +kernel)
    simpa using table visible
  · unfold upperWide
    split
    · rename_i run found
      have covered : run.covers char.toNat = true := by simpa using List.find?_some found
      simpa using isBlank_ofNat (visible_of_covers (List.mem_of_find?_eq_some found) covered)
    · split
      · -- Several characters are those of a table, none of which is blank.
        rename_i codes found
        have table : ∀ entry ∈ caseExpansions, entry.2 ≠ [] ∧
            ∀ code ∈ entry.2, blankCodes.contains code = false := by decide +kernel
        obtain ⟨front, back, same, -⟩ := List.lookup_eq_some_iff.mp found
        have listed : (char.toNat, codes) ∈ caseExpansions := by
          rw [same]
          exact List.mem_append_right front List.mem_cons_self
        obtain ⟨filled, others⟩ := table _ listed
        refine ⟨by simpa using filled, ?_⟩
        intro upper member
        obtain ⟨code, inside, rfl⟩ := List.mem_map.mp member
        exact isBlank_ofNat (others code inside)
      · simpa using visible

/-- A blank is its own upper-case form. -/
theorem upperChar_blank {char : Char} (blank : isBlank char = true) : upperChar char = [char] := by
  -- The blanks are a finite table.
  have table : ∀ code ∈ blankCodes, upperChar (Char.ofNat code) = [Char.ofNat code] := by
    decide +kernel
  have found := table char.toNat (List.contains_iff_mem.mp blank)
  rwa [Char.ofNat_toNat] at found

/-- Blanks are left as they are. -/
theorem upperText_blanks {blanks : List Char} (blank : Blanks blanks) :
    upperText blanks = blanks := by
  induction blanks with
  | nil => rfl
  | cons char rest ih =>
    have first := upperChar_blank (blank char List.mem_cons_self)
    have later := ih fun other member => blank other (List.mem_cons_of_mem char member)
    rw [upperText, List.flatMap_cons, first, ← upperText, later]
    rfl

/-- Blanks are dropped before or after each visible character is spelled in its own way. -/
theorem dropWhile_flatMap (spell : Char → List Char)
    (blank : ∀ char, isBlank char = true → spell char = [char])
    (visible : ∀ char, isBlank char = false →
      spell char ≠ [] ∧ ∀ upper ∈ spell char, isBlank upper = false) (text : List Char) :
    (text.flatMap spell).dropWhile isBlank = (text.dropWhile isBlank).flatMap spell := by
  induction text with
  | nil => rfl
  | cons char rest ih =>
    cases sort : isBlank char with
    | true =>
      rw [List.flatMap_cons, blank char sort, List.singleton_append,
        List.dropWhile_cons_of_pos sort, ih, List.dropWhile_cons_of_pos sort]
    | false =>
      -- The spelling of the first visible character stops the dropping.
      obtain ⟨filled, others⟩ := visible char sort
      obtain ⟨first, behind, same⟩ := List.exists_cons_of_ne_nil filled
      have stop := others first (by rw [same]; exact List.mem_cons_self)
      rw [List.dropWhile_cons_of_neg (by simp [sort]), List.flatMap_cons, same, List.cons_append,
        List.dropWhile_cons_of_neg (by simp [stop])]

/-- A text may be trimmed before or after it is put in upper case. -/
theorem upperText_trim (text : List Char) : upperText (trim text) = trim (upperText text) := by
  have start : trimStart (upperText text) = upperText (trimStart text) :=
    dropWhile_flatMap upperChar (fun _ => upperChar_blank) (fun _ => upperChar_visible) text
  -- Seen from the end, each upper-case form is turned around, which leaves blanks alone.
  have back (text : List Char) : trimEnd (upperText text) = upperText (trimEnd text) := by
    have turned := dropWhile_flatMap (List.reverse ∘ upperChar)
      (fun char blank => by simp [upperChar_blank blank])
      (fun char visible => by simpa using upperChar_visible visible) text.reverse
    rw [trimEnd, upperText, List.reverse_flatMap, turned, List.reverse_flatMap, trimEnd]
    simp [upperText, Function.comp_def]
  rw [trim, trim, start, back]

/-! ### Letters of the seven-bit range -/

/-- Only a seven-bit character is a letter that is put in upper case alone. -/
theorem toUpper_of_wide {char : Char} (wide : ¬ char.toNat < 128) : char.toUpper = char := by
  -- Only letters up to z are changed, which are all below 128.
  unfold Char.toUpper
  split
  · rename_i letter
    have high : char.toNat ≤ 122 := letter.2
    omega
  · rfl

/-- The upper-case form of a seven-bit letter is that of the letter in upper case. -/
theorem upperChar_toUpper (char : Char) : upperChar char.toUpper = upperChar char := by
  by_cases short : char.toNat < 128
  · -- There are 128 characters to look at.
    exact of_sevenBit short (by decide +kernel)
  · rw [toUpper_of_wide short]

/-- Texts that differ in the case of seven-bit letters have one upper-case form. -/
theorem upperText_map_toUpper (text : List Char) :
    upperText (text.map Char.toUpper) = upperText text := by
  rw [upperText, List.flatMap_map, upperText]
  simp only [upperChar_toUpper]

end Chip8
