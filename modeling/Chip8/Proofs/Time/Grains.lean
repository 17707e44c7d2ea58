import Chip8.Proofs.Time.Rounding

/-!
Times as doubles that are not negative.

Each is a whole number of grains, the smallest positive double, and infinity stands for more grains
than any other.
Sums and differences are those of the grains, rounded to fifty-three bits, so sums keep to the order
of what is added, and the difference of two times near each other is exact.
-/

namespace Chip8

open Float.Model (Format UnpackedFloat)
open Float.Model.UnpackedFloat

/-! ### Doubles -/

/-- The places that no finite double has behind its mantissa. -/
def topPlaces : Nat :=
  2046

/-- The number of grains for which infinity stands: no other double holds as many. -/
def ceiling : Nat :=
  2 ^ 52 * 2 ^ topPlaces

/-- An unpacked double stands for a number of grains, and is not negative. -/
inductive Grains : UnpackedFloat → Nat → Prop where
  | zero (sign : Sign) : Grains (.zero sign) 0
  | finite {mantissa places count : Nat} (positive : 0 < mantissa)
      (fits : Fits mantissa places count) (low : places < topPlaces) :
      Grains (.finite .positive mantissa ((places : Int) - 1074) positive) count
  | infinity : Grains (.infinity .positive) ceiling

/-- What infinity stands for has a mantissa, too. -/
theorem ceiling_fits : Fits (2 ^ 52) topPlaces ceiling :=
  -- It would be the next finite double if there were one more exponent.
  ⟨by decide, fun _ => Nat.le_refl _, rfl⟩

/-- A double holds a short number. -/
theorem Grains.short {time : UnpackedFloat} {count : Nat} (grains : Grains time count) :
    Short count := by
  cases grains with
  | zero => exact short_zero
  | finite positive fits => exact fits.short
  | infinity => exact ceiling_fits.short

/-- No double holds more than infinity stands for. -/
theorem Grains.le_ceiling {time : UnpackedFloat} {count : Nat} (grains : Grains time count) :
    count ≤ ceiling := by
  cases grains with
  | zero => exact Nat.zero_le _
  | finite positive fits low => exact Nat.le_of_lt (fits.lt ceiling_fits low)
  | infinity => exact Nat.le_refl _

/-- A finite double that is not zero holds a number that is not zero. -/
theorem Fits.pos {mantissa places count : Nat} (fits : Fits mantissa places count)
    (positive : 0 < mantissa) : 0 < count := by
  rw [fits.worth]
  exact Nat.mul_pos positive (Nat.two_pow_pos _)

/-- Mantissas and places are in the order of the numbers that they make up. -/
theorem Fits.le_iff {mantissa places count other more larger : Nat}
    (fits : Fits mantissa places count) (beside : Fits other more larger) :
    ((compare ((places : Int) - 1074) ((more : Int) - 1074)).then
      (compare mantissa other)).isLE = true ↔ count ≤ larger := by
  -- More places make a larger number, whatever the mantissas are.
  rcases Nat.lt_trichotomy places more with fewer | rfl | further
  · have order : compare ((places : Int) - 1074) ((more : Int) - 1074) = .lt := by
      rw [Int.compare_eq_lt]
      omega
    rw [order]
    exact ⟨fun _ => Nat.le_of_lt (fits.lt beside fewer), fun _ => rfl⟩
  · -- With as many places it is the mantissas that decide.
    have order : compare ((places : Int) - 1074) ((places : Int) - 1074) = .eq := by
      rw [Int.compare_eq_eq]
    rw [order, fits.worth, beside.worth, Nat.mul_le_mul_right_iff (Nat.two_pow_pos _)]
    exact Nat.isLE_compare
  · have order : compare ((places : Int) - 1074) ((more : Int) - 1074) = .gt := by
      rw [Int.compare_eq_gt]
      omega
    have above := beside.lt fits further
    rw [order]
    exact ⟨(fun wrong => by cases wrong), fun wrong => by omega⟩

/-- Unpacked doubles are in the order of their grains. -/
theorem Grains.le_iff {first second : UnpackedFloat} {less more : Nat} (left : Grains first less)
    (right : Grains second more) : first.le second = true ↔ less ≤ more := by
  -- Zero is below all others, and infinity above them.
  cases left with
  | zero sign =>
    refine ⟨fun _ => Nat.zero_le _, fun _ => ?_⟩
    cases right <;> rfl
  | finite positive fits low =>
    have occupied := fits.pos positive
    cases right with
    | zero sign => exact ⟨(fun wrong => by cases wrong), fun wrong => by omega⟩
    | finite above beside => exact fits.le_iff beside
    | infinity => exact ⟨fun _ => Nat.le_of_lt (fits.lt ceiling_fits low), fun _ => rfl⟩
  | infinity =>
    have occupied := ceiling_fits.pos (by decide)
    cases right with
    | zero sign => exact ⟨(fun wrong => by cases wrong), fun wrong => by omega⟩
    | finite above beside low =>
      have below := beside.lt ceiling_fits low
      exact ⟨(fun wrong => by cases wrong), fun wrong => by omega⟩
    | infinity => exact ⟨fun _ => Nat.le_refl _, fun _ => rfl⟩

/-- What is not before a double that is not negative is not negative. -/
theorem Grains.zero_le {first second : UnpackedFloat} {count : Nat} (grains : Grains first count)
    (order : first.le second = true) : (UnpackedFloat.zero .positive).le second = true := by
  -- Nothing with a sign is after something without one.
  cases second with
  | notANumber => cases grains <;> cases order
  | zero sign => rfl
  | infinity sign | finite sign =>
    cases sign with
    | negative => cases grains <;> cases order
    | positive => rfl

/-! ### Packing -/

/-- The exponents of a format are stored with a bias, so that none of them is negative. -/
theorem exponentBias_eq : Format.exponentBias .binary64 = 1023 :=
  rfl

/-- The first bit of a mantissa, which is not stored, counts as the highest one. -/
theorem firstBit_append (bits : BitVec 52) : (1#1 ++ bits).toNat = 2 ^ 52 + bits.toNat := by
  rw [BitVec.toNat_append, ← Nat.shiftLeft_add_eq_or_of_lt bits.isLt]
  rfl

/-- The exponent field of a double is one more than the places behind its mantissa. -/
theorem biased_eq (places : Nat) :
    ((places : Int) - 1074 + (Format.exponentBias .binary64 : Nat) + (52 : Nat)).toNat =
      places + 1 := by
  rw [exponentBias_eq]
  omega

section Unpacking

variable {bits : BitVec (Format.numBits .binary64)}

/-- The largest exponent field is reserved for infinity and for what is no number. -/
theorem unpack_special (special : unpackExponent bits = -1#11) :
    unpack .binary64 bits =
      if unpackMantissa bits = 0#52 then .infinity (Sign.ofBitVec (unpackSign bits))
      else .notANumber := by
  rw [unpack]
  dsimp only
  rw [if_pos special]

/-- Without an exponent and a mantissa zero is meant. -/
theorem unpack_zero (small : unpackExponent bits = 0#11) (none : unpackMantissa bits = 0#52) :
    unpack .binary64 bits = .zero (Sign.ofBitVec (unpackSign bits)) := by
  rw [unpack]
  dsimp only
  rw [small, if_neg (by decide), if_pos rfl, dif_pos none]

/-- Without an exponent all bits of the mantissa are stored. -/
theorem unpack_small (small : unpackExponent bits = 0#11)
    (positive : 0 < (unpackMantissa bits).toNat) :
    unpack .binary64 bits = .finite (Sign.ofBitVec (unpackSign bits)) (unpackMantissa bits).toNat
      ((0 : Nat) - 1074 : Int) positive := by
  have occupied : unpackMantissa bits ≠ 0#52 := by
    intro none
    rw [none] at positive
    cases positive
  have scale : ((0#11).toNat : Int) - ((Format.exponentBias .binary64 : Nat) + (52 : Nat)) + 1 =
      (0 : Nat) - 1074 := rfl
  rw [unpack]
  dsimp only
  rw [small, if_neg (by decide), if_pos rfl, dif_neg occupied]
  simp only [scale]

/-- With an exponent the mantissa has a first bit that is not stored. -/
theorem unpack_normal (special : unpackExponent bits ≠ -1#11)
    (normal : unpackExponent bits ≠ 0#11) :
    unpack .binary64 bits = .finite (Sign.ofBitVec (unpackSign bits))
      (2 ^ 52 + (unpackMantissa bits).toNat)
      (((unpackExponent bits).toNat - 1 : Nat) - 1074 : Int) (by omega) := by
  have counted : (unpackExponent bits).toNat ≠ 0 := fun none =>
    normal (BitVec.eq_of_toNat_eq none)
  have scale : ((unpackExponent bits).toNat : Int) -
      ((Format.exponentBias .binary64 : Nat) + (52 : Nat)) =
        ((unpackExponent bits).toNat - 1 : Nat) - 1074 := by
    rw [exponentBias_eq]
    omega
  have value : (1#1 ++ unpackMantissa bits).toNat = 2 ^ 52 + (unpackMantissa bits).toNat :=
    firstBit_append _
  rw [unpack]
  dsimp only
  rw [if_neg special, if_neg normal]
  simp only [scale, value]

end Unpacking

/-- A mantissa of fifty-three bits survives packing. -/
theorem unpack_pack {mantissa places : Nat} (positive : 0 < mantissa)
    (full : mantissa.log2 = 52) (low : places < topPlaces) :
    unpack .binary64 (pack .binary64
      (.finite .positive mantissa ((places : Int) - 1074) positive)) =
        .finite .positive mantissa ((places : Int) - 1074) positive := by
  rw [topPlaces] at low
  obtain ⟨least, most⟩ := (Nat.log2_eq_iff (by omega)).mp full
  have packed : pack .binary64 (.finite .positive mantissa ((places : Int) - 1074) positive) =
      packComponents .binary64 .positive (BitVec.ofNat 11 (places + 1))
        (BitVec.ofNat 52 mantissa) := by
    have implicit : 52 + 1 = Format.mantissaBits .binary64 := rfl
    rw [pack]
    simp only [full, biased_eq]
    rw [if_neg (by omega), if_pos implicit]
  -- Neither exponent that is reserved for special values is meant.
  have counted : (BitVec.ofNat 11 (places + 1)).toNat = places + 1 := by
    rw [BitVec.toNat_ofNat, Nat.mod_eq_of_lt (by omega)]
  have special : BitVec.ofNat 11 (places + 1) ≠ -1#11 := by
    intro same
    rw [same] at counted
    have greatest : (-1#11).toNat = 2047 := rfl
    omega
  have normal : BitVec.ofNat 11 (places + 1) ≠ 0#11 := by
    intro same
    rw [same] at counted
    cases counted
  -- The first bit is left out when the mantissa is packed, and put back when it is unpacked.
  have value : 2 ^ 52 + (BitVec.ofNat 52 mantissa).toNat = mantissa := by
    rw [BitVec.toNat_ofNat]
    omega
  have unpacked := @unpack_normal (packComponents .binary64 .positive
    (BitVec.ofNat 11 (places + 1)) (BitVec.ofNat 52 mantissa))
  simp only [unpackMantissa_packComponents, unpackExponent_packComponents,
    unpackSign_packComponents, Sign.ofBitVec_toBitVec, counted, value,
    Nat.add_sub_cancel] at unpacked
  rw [packed]
  exact unpacked special normal

/-- A mantissa of fewer bits survives packing with the smallest exponent. -/
theorem unpack_pack_small {mantissa : Nat} (positive : 0 < mantissa) (small : mantissa < 2 ^ 52) :
    unpack .binary64 (pack .binary64
      (.finite .positive mantissa ((0 : Nat) - 1074 : Int) positive)) =
        .finite .positive mantissa ((0 : Nat) - 1074 : Int) positive := by
  -- The exponent field is zero, which tells that all bits of the mantissa are there.
  have bits : mantissa.log2 < 52 := (Nat.log2_lt (by omega)).mpr small
  have packed : pack .binary64 (.finite .positive mantissa ((0 : Nat) - 1074 : Int) positive) =
      packComponents .binary64 .positive 0#11 (BitVec.ofNat 52 mantissa) := by
    have short : mantissa.log2 + 1 ≠ Format.mantissaBits .binary64 := by
      have bits : Format.mantissaBits .binary64 = 53 := rfl
      omega
    rw [pack]
    simp only [biased_eq]
    rw [if_neg (by decide), if_neg short]
  have kept : (BitVec.ofNat 52 mantissa).toNat = mantissa := by
    rw [BitVec.toNat_ofNat, Nat.mod_eq_of_lt small]
  have unpacked := @unpack_small (packComponents .binary64 .positive 0#11
    (BitVec.ofNat 52 mantissa))
  simp only [unpackMantissa_packComponents, unpackExponent_packComponents,
    unpackSign_packComponents, Sign.ofBitVec_toBitVec, kept] at unpacked
  rw [packed]
  exact unpacked trivial positive

/-- A rounded number of grains is packed to a double, or to infinity. -/
theorem Fits.packed {mantissa places count : Nat} (fits : Fits mantissa places count)
    (positive : 0 < mantissa) :
    Grains (unpack .binary64 (pack .binary64
      (.finite .positive mantissa ((places : Int) - 1074) positive))) (min count ceiling) := by
  by_cases low : places < topPlaces
  · have below := fits.lt ceiling_fits low
    -- Without places the mantissa may be short of fifty-three bits.
    have same : unpack .binary64 (pack .binary64
        (.finite .positive mantissa ((places : Int) - 1074) positive)) =
          .finite .positive mantissa ((places : Int) - 1074) positive := by
      have narrow := fits.narrow
      by_cases full : 2 ^ 52 ≤ mantissa
      · exact unpack_pack positive ((Nat.log2_eq_iff (by omega)).mpr ⟨full, narrow⟩) low
      · have none : places = 0 := by
          have := fits.full
          omega
        subst none
        exact unpack_pack_small positive (by omega)
    rw [same, Nat.min_eq_left (Nat.le_of_lt below)]
    exact .finite positive fits low
  · -- The exponent is too large for a finite double.
    have above : ceiling ≤ count := by
      rcases Nat.lt_or_eq_of_le (Nat.le_of_not_lt low) with further | same
      · exact Nat.le_of_lt (ceiling_fits.lt fits further)
      · rw [fits.worth, ← same]
        have := fits.full (by rw [← same]; decide)
        exact Nat.mul_le_mul_right _ this
    have infinite : unpack .binary64 (pack .binary64
        (.finite .positive mantissa ((places : Int) - 1074) positive)) = .infinity .positive := by
      rw [topPlaces] at low
      rw [pack]
      simp only [biased_eq]
      rw [if_pos (by omega)]
      rfl
    rw [infinite, Nat.min_eq_right above]
    exact .infinity

/-- A double survives packing. -/
theorem Grains.packed {time : UnpackedFloat} {count : Nat} (grains : Grains time count) :
    Grains (unpack .binary64 (pack .binary64 time)) count := by
  -- It is below the ceiling, so it does not become infinite.
  have least := Nat.min_eq_left grains.le_ceiling
  cases grains with
  | zero sign =>
    cases sign with
    | negative => exact .zero .negative
    | positive => exact .zero .positive
  | finite positive fits =>
    rw [← least]
    exact fits.packed positive
  | infinity => exact .infinity

/-- What a double stands for is neither rounded nor cut off at the ceiling. -/
theorem Grains.kept {time : UnpackedFloat} {count : Nat} (grains : Grains time count) :
    min (rounded count) ceiling = count := by
  rw [grains.short.rounded]
  exact Nat.min_eq_left grains.le_ceiling

/-! ### Arithmetic -/

/-- A number that is put together of a mantissa and places is rounded and packed. -/
theorem normalize_grains (mantissa places : Nat) (sign : Sign) :
    Grains (unpack .binary64 (pack .binary64
      (UnpackedFloat.normalize .binary64 (mantissa : Int) ((places : Int) - 1074) sign)))
      (min (rounded (mantissa * 2 ^ places)) ceiling) := by
  -- No grains are zero of either sign, and any other number of them is rounded and packed.
  rcases Nat.eq_zero_or_pos mantissa with rfl | occupied
  · have nothing : min (rounded (0 * 2 ^ places)) ceiling = 0 := by
      rw [Nat.zero_mul]
      exact Nat.zero_min _
    have zero : UnpackedFloat.normalize .binary64 ((0 : Nat) : Int) ((places : Int) - 1074) sign =
        .zero sign := rfl
    rw [nothing, zero]
    exact (Grains.zero sign).packed
  · have above : compare (mantissa : Int) 0 = .gt := by
      rw [Int.compare_eq_gt]
      omega
    obtain ⟨digits, zeros, positive, same, fits⟩ := round_fits occupied places
    simp only [UnpackedFloat.normalize, above, Int.toNat_natCast]
    rw [same]
    exact fits.packed positive

/-- A mantissa is brought to a smaller exponent, with as many grains. -/
theorem decreaseExponent_fits {mantissa places count less : Nat}
    (fits : Fits mantissa places count) (fewer : less ≤ places) :
    (decreaseExponent mantissa ((places : Int) - 1074) ((less : Int) - 1074)).1 * 2 ^ less =
      count := by
  have amount : ((places : Int) - 1074 - ((less : Int) - 1074)).toNat = places - less := by omega
  simp only [decreaseExponent, amount]
  rw [Nat.shiftLeft_eq, Nat.mul_assoc, ← Nat.pow_add, Nat.sub_add_cancel fewer, fits.worth]

/-- The smaller of two exponents. -/
theorem min_exponent (first second : Nat) :
    min ((first : Int) - 1074) ((second : Int) - 1074) = (min first second : Nat) - 1074 := by
  omega

/-- A sum of doubles is the rounded sum of their grains, or infinite. -/
theorem Grains.add {first second : UnpackedFloat} {less more : Nat} (left : Grains first less)
    (right : Grains second more) :
    Grains (unpack .binary64 (pack .binary64 (UnpackedFloat.add .binary64 first second)))
      (min (rounded (less + more)) ceiling) := by
  -- What infinity is added to becomes infinite, and what zero is added to stays as it is.
  have top : ∀ count, min (rounded (ceiling + count)) ceiling = ceiling := fun count => by
    have above := rounded_mono (Nat.le_add_right ceiling count)
    rw [ceiling_fits.short.rounded] at above
    exact Nat.min_eq_right above
  have one := left.kept
  have other := right.kept
  cases left with
  | zero sign =>
    rw [Nat.zero_add, other]
    cases right with
    | zero another => cases sign <;> cases another <;> exact (Grains.zero _).packed
    | finite positive fits low => exact (Grains.finite positive fits low).packed
    | infinity => exact Grains.infinity.packed
  | @finite mantissa places _ positive fits low =>
    cases right with
    | zero sign =>
      rw [Nat.add_zero, one]
      exact (Grains.finite positive fits low).packed
    | infinity =>
      rw [Nat.add_comm, top]
      exact Grains.infinity.packed
    | @finite other zeros _ above beside =>
      -- Both mantissas go to the smaller exponent, where they are added and then rounded.
      have one := decreaseExponent_fits fits (Nat.min_le_left places zeros)
      have two := decreaseExponent_fits beside (Nat.min_le_right places zeros)
      simp only [UnpackedFloat.add, min_exponent, Sign.apply]
      rw [← Int.natCast_add, ← one, ← two, ← Nat.add_mul]
      exact normalize_grains _ _ _
  | infinity =>
    rw [top]
    cases right <;> exact Grains.infinity.packed

/-- A difference of doubles is the rounded difference of their grains. -/
theorem Grains.sub {first second : UnpackedFloat} {more less : Nat} (left : Grains first more)
    (right : Grains second less) (order : less ≤ more) (finite : more < ceiling) :
    Grains (unpack .binary64 (pack .binary64 (UnpackedFloat.sub .binary64 first second)))
      (rounded (more - less)) := by
  -- A difference is not larger than what it is taken from, so it is finite, too.
  have below : min (rounded (more - less)) ceiling = rounded (more - less) := by
    have bounded := rounded_mono (Nat.sub_le more less)
    rw [left.short.rounded] at bounded
    exact Nat.min_eq_left (by omega)
  cases left with
  | zero sign =>
    cases right with
    | zero other =>
      rw [Nat.sub_self, short_zero.rounded]
      cases sign <;> cases other <;> exact (Grains.zero _).packed
    | finite positive fits =>
      have occupied := fits.pos positive
      omega
    | infinity => omega
  | @finite mantissa places _ positive fits low =>
    cases right with
    | zero =>
      rw [Nat.sub_zero, fits.short.rounded]
      exact (Grains.finite positive fits low).packed
    | infinity => omega
    | @finite other zeros _ above beside =>
      -- Both mantissas go to the smaller exponent, where one is taken from the other.
      have one := decreaseExponent_fits fits (Nat.min_le_left places zeros)
      have two := decreaseExponent_fits beside (Nat.min_le_right places zeros)
      have smaller : (decreaseExponent other ((zeros : Int) - 1074)
            ((min places zeros : Nat) - 1074)).1 ≤
          (decreaseExponent mantissa ((places : Int) - 1074)
            ((min places zeros : Nat) - 1074)).1 := by
        refine Nat.le_of_mul_le_mul_right ?_ (Nat.two_pow_pos (min places zeros))
        rw [one, two]
        exact order
      simp only [UnpackedFloat.sub, min_exponent, Sign.apply]
      rw [← below, ← Int.ofNat_sub smaller, ← one, ← two, ← Nat.sub_mul]
      exact normalize_grains _ _ _
  | infinity => omega

/-- What is taken from infinity leaves infinity. -/
theorem Grains.sub_infinity {first second : UnpackedFloat} {more less : Nat}
    (left : Grains first more) (right : Grains second less) (infinite : more = ceiling)
    (below : less < more) :
    Grains (unpack .binary64 (pack .binary64 (UnpackedFloat.sub .binary64 first second))) more := by
  -- No finite double stands for as many grains as infinity.
  have occupied := ceiling_fits.pos (by decide)
  cases left with
  | zero => omega
  | finite positive fits low =>
    have finite := fits.lt ceiling_fits low
    omega
  | infinity =>
    cases right with
    | zero | finite => exact Grains.infinity.packed
    | infinity => omega

/-- The product of a double with one is the double, if it is not too small. -/
theorem Grains.mul_one {time : UnpackedFloat} {count : Nat} (grains : Grains time count)
    (large : count = 0 ∨ 52 ≤ extraPlaces count) (finite : count < ceiling)
    (positive : 0 < 2 ^ 52) :
    Grains (unpack .binary64 (pack .binary64
      (UnpackedFloat.mul .binary64 time (.finite .positive (2 ^ 52) (-52) positive)))) count := by
  have least := grains.kept
  cases grains with
  | zero sign => cases sign <;> exact (Grains.zero _).packed
  | @finite mantissa places _ above fits low =>
    have occupied := fits.pos above
    have places_eq := fits.extraPlaces above
    -- The product has fifty-two bits more than it needs, and all of them are zero.
    have worth : mantissa * 2 ^ 52 * 2 ^ (places - 52) = count := by
      rw [Nat.mul_assoc, ← Nat.pow_add, fits.worth]
      congr 2
      omega
    have scale : (places : Int) - 1074 + -52 = ((places - 52 : Nat) : Int) - 1074 := by omega
    -- Rounding takes these zeros away again.
    obtain ⟨digits, zeros, nonzero, same, product⟩ :=
      @roundWithAccuracy_fits (mantissa * 2 ^ 52) (Nat.mul_pos above positive) (places - 52)
        (by rw [worth, places_eq]; omega)
    rw [worth] at product
    simp only [UnpackedFloat.mul, scale]
    rw [← least, show Sign.positive * Sign.positive = .positive from rfl, same]
    exact product.packed nonzero
  | infinity => omega

/-- Doubles that stand for as many grains are equal. -/
theorem Grains.beq {first second : UnpackedFloat} {count number : Nat} (left : Grains first count)
    (right : Grains second number) (same : count = number) : first.beq second = true := by
  -- Doubles of different kinds stand for different numbers.
  rw [beq_iff_ne_notANumber_and_eq]
  have top := ceiling_fits.pos (by decide)
  cases left with
  | zero sign =>
    cases right with
    | zero other => cases sign <;> cases other <;> simp
    | finite positive fits =>
      have occupied := fits.pos positive
      omega
    | infinity => omega
  | @finite mantissa places _ positive fits low =>
    have occupied := fits.pos positive
    have below := fits.lt ceiling_fits low
    cases right with
    | zero => omega
    | @finite other zeros _ above beside =>
      -- A number has one mantissa only.
      subst same
      obtain rfl : zeros = places := by rw [← beside.extraPlaces above, fits.extraPlaces positive]
      obtain rfl : other = mantissa := by
        have worth := beside.worth
        rw [fits.worth] at worth
        exact (Nat.mul_right_cancel (Nat.two_pow_pos zeros) worth).symm
      simp
    | infinity => omega
  | infinity =>
    cases right with
    | zero => omega
    | finite above beside high =>
      have below := beside.lt ceiling_fits high
      omega
    | infinity => simp

/-- What is equal to a number of grains stands for it, and nothing else does. -/
theorem Grains.beq_iff {first second : UnpackedFloat} {count : Nat} (grains : Grains second count) :
    first.beq second = true ↔ Grains first count := by
  refine ⟨fun equal => ?_, fun other => other.beq grains rfl⟩
  -- The two doubles are the same, but for the signs of zeros.
  obtain ⟨-, -, rfl | ⟨rfl, rfl⟩ | ⟨rfl, rfl⟩⟩ :=
    (beq_iff_ne_notANumber_and_eq first second).mp equal
  · exact grains
  · cases grains
    exact .zero .positive
  · cases grains
    exact .zero .negative

/-! ### Times -/

/-- A time that is not negative, as a double, stands for a number of grains. -/
def Lasts (time : Float) (count : Nat) : Prop :=
  Grains time.toModel.unpack count

/-- Zero stands for no grains. -/
theorem lasts_zero : Lasts 0.0 0 := by
  have zero : (0.0 : Float).toModel.unpack = .zero .positive := rfl
  rw [Lasts, zero]
  exact .zero _

/-- A finite double that is not zero and not below it is positive. -/
theorem sign_of_zero_le {sign : Sign} {mantissa : Nat} {exponent : Int} {positive : 0 < mantissa}
    (order : (UnpackedFloat.zero .positive).le (.finite sign mantissa exponent positive) = true) :
    sign = .positive := by
  cases sign with
  | positive => rfl
  | negative => cases order

/-- What unpacks to something not below zero stands for a number of grains. -/
theorem exists_grains {bits : BitVec (Format.numBits .binary64)}
    (order : (UnpackedFloat.zero .positive).le (unpack .binary64 bits) = true) :
    ∃ count, Grains (unpack .binary64 bits) count := by
  -- The exponent field tells infinities, small numbers and others apart.
  have narrow : (unpackMantissa bits).toNat < 2 ^ 52 := (unpackMantissa bits).isLt
  have few : (unpackExponent bits).toNat < 2 ^ 11 := (unpackExponent bits).isLt
  by_cases special : unpackExponent bits = -1#11
  · rw [unpack_special special] at order ⊢
    generalize Sign.ofBitVec (unpackSign bits) = sign at order ⊢
    split at order
    · rename_i none
      rw [if_pos none]
      cases sign with
      | negative => cases order
      | positive => exact ⟨_, .infinity⟩
    · cases order
  · by_cases small : unpackExponent bits = 0#11
    · rcases Nat.eq_zero_or_pos (unpackMantissa bits).toNat with none | positive
      · rw [unpack_zero small (BitVec.eq_of_toNat_eq none)]
        exact ⟨_, .zero _⟩
      · rw [unpack_small small positive] at order ⊢
        rw [sign_of_zero_le order]
        exact ⟨_, .finite positive ⟨by omega, by omega, rfl⟩ (by decide)⟩
    · rw [unpack_normal special small] at order ⊢
      rw [sign_of_zero_le order]
      -- The reserved exponent is left out, so the places stay below the top.
      have finite : (unpackExponent bits).toNat ≠ 2047 := fun full =>
        special (BitVec.eq_of_toNat_eq full)
      refine ⟨_, .finite _ ⟨by omega, by omega, rfl⟩ ?_⟩
      rw [topPlaces]
      omega

/-- What is not negative stands for a number of grains. -/
theorem exists_lasts {time : Float} (order : 0.0 ≤ time) : ∃ count, Lasts time count := by
  -- The order of doubles is that of their unpacked forms.
  have zero : (0.0 : Float).toModel.unpack = .zero .positive := rfl
  have above : (UnpackedFloat.zero .positive).le time.toModel.unpack = true := by
    rw [← zero]
    exact of_decide_eq_true order
  exact exists_grains above

variable {first second third fourth : Float} {less more : Nat}

/-- Times are in the order of their grains. -/
theorem Lasts.le_iff (left : Lasts first less) (right : Lasts second more) :
    first ≤ second ↔ less ≤ more :=
  Iff.trans ⟨of_decide_eq_true, decide_eq_true⟩ (Grains.le_iff left right)

/-- A sum of times is the rounded sum of their grains, or infinite. -/
theorem Lasts.add (left : Lasts first less) (right : Lasts second more) :
    Lasts (first + second) (min (rounded (less + more)) ceiling) :=
  Grains.add left right

/-- A difference of times is the rounded difference of their grains. -/
theorem Lasts.sub (left : Lasts first more) (right : Lasts second less) (order : less ≤ more)
    (finite : more < ceiling) : Lasts (first - second) (rounded (more - less)) :=
  Grains.sub left right order finite

/-- A time is equal to what stands for the same number of grains. -/
theorem Lasts.beq_iff {count : Nat} (lasts : Lasts second count) :
    (first == second) = true ↔ Lasts first count :=
  Grains.beq_iff lasts

/-- The difference of two times near each other is exact, unless it is infinite. -/
theorem Lasts.sub_near (left : Lasts first more) (right : Lasts second less) (below : less < more)
    (near : less = 0 ∨ more ≤ 2 * less) :
    ∃ count, more - less ≤ count ∧ Lasts (first - second) count := by
  -- It has no more bits than a double, so it is not rounded.
  rcases Nat.lt_or_eq_of_le (Grains.le_ceiling left) with finite | infinite
  · have difference := left.sub right (Nat.le_of_lt below) finite
    have short := (Grains.short right).sub (Grains.short left) near
    rw [short.rounded] at difference
    exact ⟨_, Nat.le_refl _, difference⟩
  · exact ⟨_, Nat.sub_le _ _, Grains.sub_infinity left right infinite below⟩

/-- What is not before a time is not negative. -/
theorem zero_le_of_le (one : 0.0 ≤ first) (order : first ≤ second) : 0.0 ≤ second := by
  -- A time not before zero is a number of grains, and so is one not before it.
  obtain ⟨_, grains⟩ := exists_lasts one
  have zero : (0.0 : Float).toModel.unpack = .zero .positive := rfl
  have above := Grains.zero_le grains (of_decide_eq_true order)
  rw [← zero] at above
  exact decide_eq_true above

/-- The order of times is transitive. -/
theorem time_le_trans (one : 0.0 ≤ first) (left : first ≤ second) (right : second ≤ third) :
    first ≤ third := by
  -- All three stand for grains, as none is before the first.
  have two := zero_le_of_le one left
  obtain ⟨_, least⟩ := exists_lasts one
  obtain ⟨_, middle⟩ := exists_lasts two
  obtain ⟨_, most⟩ := exists_lasts (zero_le_of_le two right)
  rw [least.le_iff middle] at left
  rw [middle.le_iff most] at right
  rw [least.le_iff most]
  exact Nat.le_trans left right

/-- Sums keep to the order of the times that are added. -/
theorem time_add_mono (one : 0.0 ≤ first) (left : first ≤ second) (other : 0.0 ≤ third)
    (right : third ≤ fourth) : first + third ≤ second + fourth := by
  obtain ⟨_, least⟩ := exists_lasts one
  obtain ⟨_, most⟩ := exists_lasts (zero_le_of_le one left)
  obtain ⟨_, fewest⟩ := exists_lasts other
  obtain ⟨_, largest⟩ := exists_lasts (zero_le_of_le other right)
  rw [least.le_iff most] at left
  rw [fewest.le_iff largest] at right
  rw [(least.add fewest).le_iff (most.add largest)]
  -- Neither rounding nor the ceiling changes the order of the sums.
  have sums := rounded_mono (Nat.add_le_add left right)
  omega

/-- Adding some time leads to no earlier one. -/
theorem le_add_time (one : 0.0 ≤ first) (other : 0.0 ≤ second) : second ≤ first + second := by
  obtain ⟨less, left⟩ := exists_lasts one
  obtain ⟨more, right⟩ := exists_lasts other
  rw [right.le_iff (left.add right)]
  -- The later time is rounded to itself, and a sum to no less.
  have sum := rounded_mono (Nat.le_add_left more less)
  rw [(Grains.short right).rounded] at sum
  exact Nat.le_min.mpr ⟨sum, Grains.le_ceiling right⟩

/-- Waiting for the time that is left until another one leads to that time, or beyond. -/
theorem le_add_sub (one : 0.0 ≤ first) (other : 0.0 ≤ second) (order : ¬second ≤ first)
    (near : first ≤ 0.0 ∨ second ≤ first + first) : second ≤ first + (second - first) := by
  obtain ⟨less, left⟩ := exists_lasts one
  obtain ⟨more, right⟩ := exists_lasts other
  rw [right.le_iff left] at order
  have close : less = 0 ∨ more ≤ 2 * less := by
    rcases near with zero | twice
    · rw [left.le_iff lasts_zero] at zero
      exact .inl (Nat.le_zero.mp zero)
    · -- Twice a time is exact, unless it is infinite.
      rw [right.le_iff (left.add left), ← Nat.two_mul, (Grains.short left).double.rounded] at twice
      exact .inr (Nat.le_trans twice (Nat.min_le_left _ _))
  -- The difference is exact but for infinity, and what it leads to is rounded to itself.
  obtain ⟨count, least, difference⟩ := right.sub_near left (by omega) close
  rw [right.le_iff (left.add difference)]
  have sum := @rounded_mono more (less + count) (by omega)
  rw [(Grains.short right).rounded] at sum
  exact Nat.le_min.mpr ⟨sum, Grains.le_ceiling right⟩

end Chip8
