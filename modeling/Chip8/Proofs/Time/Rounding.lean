import Mathlib

/-!
Whole numbers that are rounded to fifty-three bits, to the nearest and at a tie to the even one.

Rounding keeps to the order of numbers, and leaves those alone that have no more bits.
It is what the arithmetic of doubles does with a mantissa.
-/

namespace Chip8

open Float.Model (Format UnpackedFloat totalExponent)
open Float.Model.UnpackedFloat

/-! ### Whole numbers of fifty-three bits -/

/-- Zeros at the end of a number are as many places more. -/
theorem log2_zeros {count : Nat} (occupied : 0 < count) (zeros : Nat) :
    (count * 2 ^ zeros).log2 = count.log2 + zeros := by
  -- Each zero doubles the number.
  induction zeros with
  | zero => rw [Nat.pow_zero, Nat.mul_one, Nat.add_zero]
  | succ zeros ih =>
    have more : count * 2 ^ zeros ≠ 0 := Nat.mul_ne_zero (by omega) (by simp)
    have doubled : count * 2 ^ (zeros + 1) = 2 * (count * 2 ^ zeros) := by
      rw [Nat.pow_succ, Nat.mul_comm 2, Nat.mul_assoc]
    rw [doubled, Nat.log2_two_mul more, ih]
    omega

/-- The binary places of a number behind its first fifty-three. -/
def extraPlaces (count : Nat) : Nat :=
  count.log2 - 52

/-- A number without its last binary places: the nearest, and at a tie the even one. -/
def roundOff (places count : Nat) : Nat :=
  if 2 * (count % 2 ^ places) < 2 ^ places then count / 2 ^ places
  else if 2 ^ places < 2 * (count % 2 ^ places) then count / 2 ^ places + 1
  else count / 2 ^ places + count / 2 ^ places % 2

/-- A number in which all but the first fifty-three binary places are rounded to zeros. -/
def rounded (count : Nat) : Nat :=
  roundOff (extraPlaces count) count * 2 ^ extraPlaces count

/-- A number has only zeros behind its first fifty-three binary places. -/
def Short (count : Nat) : Prop :=
  2 ^ extraPlaces count ∣ count

/-- A rounded number is one of its two neighbours. -/
theorem roundOff_bounds (places count : Nat) :
    count / 2 ^ places ≤ roundOff places count ∧
      roundOff places count ≤ count / 2 ^ places + 1 := by
  -- At a tie the parity of the lower one decides.
  unfold roundOff
  split
  · omega
  · split <;> omega

/-- Rounding at one place keeps to the order of numbers. -/
theorem roundOff_mono (places : Nat) {less more : Nat} (order : less ≤ more) :
    roundOff places less ≤ roundOff places more := by
  obtain ⟨-, most⟩ := roundOff_bounds places less
  obtain ⟨least, -⟩ := roundOff_bounds places more
  have quotients : less / 2 ^ places ≤ more / 2 ^ places := Nat.div_le_div_right order
  rcases Nat.lt_or_eq_of_le quotients with below | same
  · omega
  · -- With the same quotient it is the remainders that decide.
    have remainders : less % 2 ^ places ≤ more % 2 ^ places := by
      have first := Nat.div_add_mod less (2 ^ places)
      have second := Nat.div_add_mod more (2 ^ places)
      rw [same] at first
      omega
    unfold roundOff
    rw [same]
    split_ifs <;> omega

/-- Extra places are there for numbers of more than fifty-three bits only. -/
theorem extraPlaces_mono {less more : Nat} (order : less ≤ more) :
    extraPlaces less ≤ extraPlaces more := by
  -- A larger number has no fewer bits, and zero has none at all.
  have places : less.log2 ≤ more.log2 := by
    rcases Nat.eq_zero_or_pos less with rfl | positive
    · exact Nat.zero_le _
    · exact (Nat.le_log2 (by omega)).mpr (Nat.le_trans (Nat.log2_self_le (by omega)) order)
  unfold extraPlaces
  omega

/-- Without its extra places a number has at most fifty-three bits. -/
theorem div_extraPlaces_lt (count : Nat) : count / 2 ^ extraPlaces count < 2 ^ 53 := by
  -- The places cut off are all beyond the fifty-third.
  rw [Nat.div_lt_iff_lt_mul (Nat.two_pow_pos _), ← Nat.pow_add]
  refine Nat.lt_of_lt_of_le Nat.lt_log2_self (Nat.pow_le_pow_right (by decide) ?_)
  unfold extraPlaces
  omega

/-- A number with extra places has fifty-three others. -/
theorem le_div_extraPlaces {count : Nat} (extra : 0 < extraPlaces count) :
    2 ^ 52 ≤ count / 2 ^ extraPlaces count := by
  -- Where places are cut off, just fifty-three are left, and the first of them is a one.
  have occupied : count ≠ 0 := by
    rintro rfl
    simp [extraPlaces] at extra
  rw [Nat.le_div_iff_mul_le (Nat.two_pow_pos _), ← Nat.pow_add]
  refine Nat.le_trans (Nat.pow_le_pow_right (by decide) ?_) (Nat.log2_self_le occupied)
  unfold extraPlaces at extra ⊢
  omega

/-- Rounding keeps to the order of numbers. -/
theorem rounded_mono {less more : Nat} (order : less ≤ more) : rounded less ≤ rounded more := by
  rcases Nat.lt_or_eq_of_le (extraPlaces_mono order) with fewer | same
  · -- A power of two with fifty-four bits is between the two.
    obtain ⟨-, most⟩ := roundOff_bounds (extraPlaces less) less
    obtain ⟨least, -⟩ := roundOff_bounds (extraPlaces more) more
    have small := div_extraPlaces_lt less
    have large := le_div_extraPlaces (Nat.lt_of_le_of_lt (Nat.zero_le _) fewer)
    calc rounded less
      _ ≤ 2 ^ 53 * 2 ^ extraPlaces less := Nat.mul_le_mul_right _ (by omega)
      _ = 2 ^ 52 * 2 ^ (extraPlaces less + 1) := by
        rw [← Nat.pow_add, ← Nat.pow_add]
        congr 1
        omega
      _ ≤ 2 ^ 52 * 2 ^ extraPlaces more :=
        Nat.mul_le_mul_left _ (Nat.pow_le_pow_right (by decide) fewer)
      _ ≤ rounded more := Nat.mul_le_mul_right _ (by omega)
  · -- Both are rounded at the same place.
    unfold rounded
    rw [same]
    exact Nat.mul_le_mul_right _ (roundOff_mono _ order)

/-- Zero is short. -/
theorem short_zero : Short 0 :=
  Nat.dvd_zero _

/-- A short number is rounded to itself. -/
theorem Short.rounded {count : Nat} (short : Short count) : rounded count = count := by
  -- Nothing remains behind the place at which it is rounded.
  have none : count % 2 ^ extraPlaces count = 0 := Nat.mod_eq_zero_of_dvd short
  have less : 2 * 0 < 2 ^ extraPlaces count := Nat.two_pow_pos _
  rw [Chip8.rounded, roundOff, none, if_pos less, Nat.div_mul_cancel short]

/-- A multiple of a power of two is short if it has at most fifty-three bits before it. -/
theorem short_of_dvd {count places : Nat} (few : extraPlaces count ≤ places)
    (divides : 2 ^ places ∣ count) : Short count :=
  Nat.dvd_trans (Nat.pow_dvd_pow 2 few) divides

/-- A number of at most fifty-three bits is short, however many zeros are at its end. -/
theorem short_shifted {count : Nat} (narrow : count < 2 ^ 53) (zeros : Nat) :
    Short (count * 2 ^ zeros) := by
  -- Zeros at the end can be cut off without a loss, and the rest is narrow.
  rcases Nat.eq_zero_or_pos count with rfl | occupied
  · rw [Nat.zero_mul]
    exact short_zero
  · have bits : count.log2 < 53 := (Nat.log2_lt (by omega)).mpr narrow
    refine @short_of_dvd _ zeros ?_ (Nat.dvd_mul_left _ _)
    rw [extraPlaces, log2_zeros occupied]
    omega

/-- The difference of two short numbers is short if one is at most twice the other, or all. -/
theorem Short.sub {less more : Nat} (small : Short less) (large : Short more)
    (near : less = 0 ∨ more ≤ 2 * less) : Short (more - less) := by
  rcases near with rfl | near
  · exact large
  · rcases Nat.le_total more less with none | order
    · rw [Nat.sub_eq_zero_of_le none]
      exact short_zero
    · -- Both are multiples of what the smaller one is a multiple of.
      refine @short_of_dvd _ (extraPlaces less) (extraPlaces_mono (by omega)) ?_
      exact Nat.dvd_sub
        (Nat.dvd_trans (Nat.pow_dvd_pow 2 (extraPlaces_mono order)) large) small

/-- Nothing but zero is rounded to zero. -/
theorem rounded_pos {count : Nat} (occupied : 0 < count) : 0 < rounded count :=
  -- One is rounded to itself, and no other such number is less.
  Nat.lt_of_lt_of_le (by decide : 0 < rounded 1) (rounded_mono occupied)

/-- Zeros at the end of a number are no matter for its rounding. -/
theorem roundOff_shifted (places zeros count : Nat) :
    roundOff (places + zeros) (count * 2 ^ zeros) = roundOff places count := by
  -- The zeros cancel in the quotient, and both sides of the comparisons have them.
  have quotient : count * 2 ^ zeros / 2 ^ (places + zeros) = count / 2 ^ places := by
    rw [Nat.pow_add, Nat.mul_div_mul_right _ _ (Nat.two_pow_pos _)]
  have remainder : count * 2 ^ zeros % 2 ^ (places + zeros) = count % 2 ^ places * 2 ^ zeros := by
    rw [Nat.pow_add, Nat.mul_mod_mul_right]
  have below : 2 * (count % 2 ^ places * 2 ^ zeros) < 2 ^ (places + zeros) ↔
      2 * (count % 2 ^ places) < 2 ^ places := by
    rw [Nat.pow_add, ← Nat.mul_assoc, Nat.mul_lt_mul_right (Nat.two_pow_pos _)]
  have above : 2 ^ (places + zeros) < 2 * (count % 2 ^ places * 2 ^ zeros) ↔
      2 ^ places < 2 * (count % 2 ^ places) := by
    rw [Nat.pow_add, ← Nat.mul_assoc, Nat.mul_lt_mul_right (Nat.two_pow_pos _)]
  simp only [roundOff, quotient, remainder, below, above]

/-- Twice a short number is short. -/
theorem Short.double {count : Nat} (short : Short count) : Short (2 * count) := by
  -- It has one more place, and is a multiple of one more power of two.
  rcases Nat.eq_zero_or_pos count with rfl | occupied
  · exact short
  · refine @short_of_dvd _ (extraPlaces count + 1) ?_ ?_
    · have longer := log2_zeros occupied 1
      rw [Nat.pow_one] at longer
      rw [Nat.mul_comm, extraPlaces, extraPlaces]
      omega
    · rw [Nat.pow_succ, Nat.mul_comm]
      exact Nat.mul_dvd_mul_left 2 short

/-! ### Mantissas -/

/-- A mantissa and the zeros behind it make up a number the way a double holds it. -/
structure Fits (mantissa places count : Nat) : Prop where
  narrow : mantissa < 2 ^ 53
  full : 0 < places → 2 ^ 52 ≤ mantissa
  worth : count = mantissa * 2 ^ places

/-- The zeros behind a mantissa are the extra places of the number. -/
theorem Fits.extraPlaces {mantissa places count : Nat} (fits : Fits mantissa places count)
    (occupied : 0 < mantissa) : extraPlaces count = places := by
  -- Zeros are there only behind a mantissa of all fifty-three bits.
  obtain ⟨narrow, full, rfl⟩ := fits
  have bits : mantissa.log2 < 53 := (Nat.log2_lt (by omega)).mpr narrow
  have enough : 0 < places → 52 ≤ mantissa.log2 := fun extra =>
    (Nat.le_log2 (by omega)).mpr (full extra)
  rw [Chip8.extraPlaces, log2_zeros occupied]
  omega

/-- What has a mantissa is short. -/
theorem Fits.short {mantissa places count : Nat} (fits : Fits mantissa places count) :
    Short count := by
  rw [fits.worth]
  exact short_shifted fits.narrow places

/-- What has more zeros behind its mantissa is larger. -/
theorem Fits.lt {mantissa places count other more larger : Nat} (fits : Fits mantissa places count)
    (beside : Fits other more larger) (fewer : places < more) : count < larger := by
  -- It has a full mantissa, and so at least one bit more.
  have full := beside.full (by omega)
  rw [fits.worth, beside.worth]
  calc mantissa * 2 ^ places
    _ < 2 ^ 53 * 2 ^ places := Nat.mul_lt_mul_of_pos_right fits.narrow (Nat.two_pow_pos _)
    _ = 2 ^ 52 * 2 ^ (places + 1) := by
      rw [← Nat.pow_add, ← Nat.pow_add]
      congr 1
      omega
    _ ≤ 2 ^ 52 * 2 ^ more := Nat.mul_le_mul_left _ (Nat.pow_le_pow_right (by decide) fewer)
    _ ≤ other * 2 ^ more := Nat.mul_le_mul_right _ full

/-- The rounded form of a number has a mantissa, perhaps with one more zero behind it. -/
theorem rounded_fits (count : Nat) :
    (roundOff (extraPlaces count) count < 2 ^ 53 ∧
      Fits (roundOff (extraPlaces count) count) (extraPlaces count) (rounded count)) ∨
    (roundOff (extraPlaces count) count = 2 ^ 53 ∧
      Fits (2 ^ 52) (extraPlaces count + 1) (rounded count)) := by
  obtain ⟨least, most⟩ := roundOff_bounds (extraPlaces count) count
  have small := div_extraPlaces_lt count
  by_cases narrow : roundOff (extraPlaces count) count < 2 ^ 53
  · refine .inl ⟨narrow, narrow, fun extra => ?_, rfl⟩
    exact Nat.le_trans (le_div_extraPlaces extra) least
  · -- Rounding up has carried through all the bits.
    have carried : roundOff (extraPlaces count) count = 2 ^ 53 := by omega
    refine .inr ⟨carried, by decide, fun _ => Nat.le_refl _, ?_⟩
    rw [rounded, carried, ← Nat.pow_add, ← Nat.pow_add]
    congr 1
    omega

/-! ### Rounding of the format -/

/-- The bits that are kept of those that are shifted out tell the remainder from its half. -/
theorem repeat_shiftRightOne_eq (mantissa distance : Nat) :
    Nat.repeat ExtendedMantissa.shiftRightOne distance ⟨mantissa, false, false⟩ =
      ⟨mantissa / 2 ^ distance, decide (2 ^ distance ≤ 2 * (mantissa % 2 ^ distance)),
        decide (mantissa % 2 ^ distance ≠ 0 ∧ 2 * (mantissa % 2 ^ distance) ≠ 2 ^ distance)⟩ := by
  induction distance with
  | zero => simp [Nat.repeat, Nat.mod_one]
  | succ distance ih =>
    -- One more bit of the mantissa goes to the head of the remainder.
    have remainder := @Nat.mod_pow_succ mantissa 2 distance
    have below := Nat.mod_lt mantissa (Nat.two_pow_pos distance)
    have quotient : mantissa / 2 ^ (distance + 1) = mantissa / 2 ^ distance / 2 := by
      rw [Nat.pow_succ, Nat.div_div_eq_div_mul]
    rw [Nat.repeat, ih, ExtendedMantissa.shiftRightOne, quotient, remainder, Nat.pow_succ]
    rcases Nat.mod_two_eq_zero_or_one (mantissa / 2 ^ distance) with bit | bit
    all_goals
      rw [bit]
      congr 1
      · exact Bool.eq_iff_iff.mpr (by simp only [bne_iff_ne, decide_eq_true_eq]; omega)
      · rw [Bool.eq_iff_iff, Bool.or_eq_true]
        simp only [decide_eq_true_eq]
        omega

/-- Bits that are shifted out of a mantissa round it to the nearest, at a tie to the even one. -/
theorem roundedMantissa_shifted (mantissa distance : Nat) :
    ExtendedMantissa.roundedMantissa
        (Nat.repeat ExtendedMantissa.shiftRightOne distance ⟨mantissa, false, false⟩) =
      roundOff distance mantissa := by
  rw [repeat_shiftRightOne_eq, roundOff, ExtendedMantissa.roundedMantissa]
  -- The first bit is set from the half on, and the other one off the half and off zero.
  by_cases half : 2 ^ distance ≤ 2 * (mantissa % 2 ^ distance)
  · rw [decide_eq_true half, if_neg (by omega)]
    by_cases more : 2 ^ distance < 2 * (mantissa % 2 ^ distance)
    · have off : mantissa % 2 ^ distance ≠ 0 ∧ 2 * (mantissa % 2 ^ distance) ≠ 2 ^ distance := by
        omega
      rw [decide_eq_true off, if_pos more]
      rfl
    · have tie : ¬(mantissa % 2 ^ distance ≠ 0 ∧
          2 * (mantissa % 2 ^ distance) ≠ 2 ^ distance) := by omega
      rw [decide_eq_false tie, if_neg more]
      rfl
  · rw [decide_eq_false half, if_pos (by omega)]
    cases decide (mantissa % 2 ^ distance ≠ 0 ∧
      2 * (mantissa % 2 ^ distance) ≠ 2 ^ distance) <;> rfl

/-- The exponent of the smallest positive double. -/
theorem minExponent_eq : Format.minExponent .binary64 = -1074 := by
  decide

/-- The exponent that the format wants for a mantissa leaves it its first fifty-three places. -/
theorem targetExponent_grains {mantissa : Nat} (occupied : 0 < mantissa) (places : Nat) :
    Format.targetExponent .binary64 (totalExponent mantissa ((places : Int) - 1074)) =
      (extraPlaces (mantissa * 2 ^ places) : Int) - 1074 := by
  -- No exponent is below that of the smallest double, as no number has less than no extra places.
  have bits : Format.mantissaBits .binary64 = 53 := rfl
  rw [Format.targetExponent, totalExponent, bits, minExponent_eq, extraPlaces,
    log2_zeros occupied]
  omega

/-- What is shifted to the exponent of the format has that exponent. -/
theorem shiftToTargetExponent_grains {mantissa : Nat} (occupied : 0 < mantissa) {places : Nat}
    (few : places ≤ extraPlaces (mantissa * 2 ^ places)) :
    shiftToTargetExponent .binary64 mantissa ((places : Int) - 1074) .exact =
      (Nat.repeat ExtendedMantissa.shiftRightOne (extraPlaces (mantissa * 2 ^ places) - places)
        ⟨mantissa, false, false⟩, (extraPlaces (mantissa * 2 ^ places) : Int) - 1074) := by
  -- Both exponents count from the least grain, so their distance is one of places.
  have amount : ((extraPlaces (mantissa * 2 ^ places) : Int) - 1074 -
      ((places : Int) - 1074)).toNat = extraPlaces (mantissa * 2 ^ places) - places := by omega
  rw [shiftToTargetExponent, targetExponent_grains occupied]
  simp only [shiftToExponent, amount]
  refine Prod.ext rfl ?_
  show (places : Int) - 1074 + (extraPlaces (mantissa * 2 ^ places) - places : Nat) = _
  omega

/-- What the format makes of a number is its rounded form. -/
theorem roundWithAccuracy_fits {mantissa : Nat} (occupied : 0 < mantissa) {places : Nat}
    (few : places ≤ extraPlaces (mantissa * 2 ^ places)) :
    ∃ (digits zeros : Nat) (positive : 0 < digits),
      roundWithAccuracy .binary64 .positive mantissa ((places : Int) - 1074) .exact =
        .finite .positive digits ((zeros : Int) - 1074) positive ∧
      Fits digits zeros (rounded (mantissa * 2 ^ places)) := by
  -- The first shift rounds, and its result is rounded as that of the whole number.
  have first := shiftToTargetExponent_grains occupied few
  have whole : extraPlaces (mantissa * 2 ^ places) - places + places =
      extraPlaces (mantissa * 2 ^ places) := by omega
  have shifted := roundOff_shifted (extraPlaces (mantissa * 2 ^ places) - places) places mantissa
  rw [whole] at shifted
  have left := rounded_pos (Nat.mul_pos occupied (Nat.two_pow_pos places))
  generalize mantissa * 2 ^ places = count at few first whole shifted left ⊢
  have digits : 0 < roundOff (extraPlaces count) count := Nat.pos_of_mul_pos_right left
  -- Rounding may have carried into a fifty-fourth bit, which is zero then and shifted out.
  rcases rounded_fits count with ⟨-, fits⟩ | ⟨carried, fits⟩
  · have second := @shiftToTargetExponent_grains _ digits (extraPlaces count)
      (Nat.le_of_eq (fits.extraPlaces digits).symm)
    have same : extraPlaces (roundOff (extraPlaces count) count * 2 ^ extraPlaces count) =
        extraPlaces count := fits.extraPlaces digits
    rw [same, Nat.sub_self] at second
    refine ⟨_, _, digits, ?_, fits⟩
    simp only [roundWithAccuracy, first, roundedMantissa_shifted, ← shifted, second, Nat.repeat]
    rw [dif_neg (Nat.ne_of_gt digits)]
  · have same : extraPlaces (roundOff (extraPlaces count) count * 2 ^ extraPlaces count) =
        extraPlaces count + 1 := fits.extraPlaces (by decide)
    have second := @shiftToTargetExponent_grains _ digits (extraPlaces count) (by omega)
    rw [same, Nat.add_sub_cancel_left] at second
    have halved : (Nat.repeat ExtendedMantissa.shiftRightOne 1
        ⟨roundOff (extraPlaces count) count, false, false⟩).mantissa = 2 ^ 52 := by
      rw [carried]
      rfl
    refine ⟨2 ^ 52, _, by decide, ?_, fits⟩
    simp only [roundWithAccuracy, first, roundedMantissa_shifted, ← shifted, second, halved]
    rw [dif_neg (by decide)]

/-- A number of grains is rounded by the format to its rounded form. -/
theorem round_fits {mantissa : Nat} (occupied : 0 < mantissa) (places : Nat) :
    ∃ (digits zeros : Nat) (positive : 0 < digits),
      UnpackedFloat.round .binary64 .positive mantissa ((places : Int) - 1074) =
        .finite .positive digits ((zeros : Int) - 1074) positive ∧
      Fits digits zeros (rounded (mantissa * 2 ^ places)) := by
  simp only [UnpackedFloat.round, targetExponent_grains occupied, decreaseExponent]
  rcases Nat.le_total places (extraPlaces (mantissa * 2 ^ places)) with few | many
  · -- A mantissa that is long enough is only shortened.
    have none : ((places : Int) - 1074 -
        ((extraPlaces (mantissa * 2 ^ places) : Int) - 1074)).toNat = 0 := by omega
    rw [none, Nat.shiftLeft_zero, Int.natCast_zero, Int.sub_zero]
    exact roundWithAccuracy_fits occupied few
  · -- The mantissa is made as long as it has to be.
    have amount : ((places : Int) - 1074 -
        ((extraPlaces (mantissa * 2 ^ places) : Int) - 1074)).toNat =
          places - extraPlaces (mantissa * 2 ^ places) := by omega
    have worth : mantissa <<< (places - extraPlaces (mantissa * 2 ^ places)) *
        2 ^ extraPlaces (mantissa * 2 ^ places) = mantissa * 2 ^ places := by
      rw [Nat.shiftLeft_eq, Nat.mul_assoc, ← Nat.pow_add, Nat.sub_add_cancel many]
    have scale : (places : Int) - 1074 - (places - extraPlaces (mantissa * 2 ^ places) : Nat) =
        (extraPlaces (mantissa * 2 ^ places) : Int) - 1074 := by omega
    have longer : 0 < mantissa <<< (places - extraPlaces (mantissa * 2 ^ places)) := by
      rw [Nat.shiftLeft_eq]
      exact Nat.mul_pos occupied (Nat.two_pow_pos _)
    have rounds := @roundWithAccuracy_fits _ longer (extraPlaces (mantissa * 2 ^ places))
      (by rw [worth])
    rw [amount, scale]
    rwa [worth] at rounds

end Chip8
