import Chip8.Proofs.Time.Grains

/-!
Whole numbers of seconds as doubles.

Below fifty-three bits a double holds each of them, so the difference of two is exact.
-/

namespace Chip8

open Float.Model (UnpackedFloat)
open Float.Model.UnpackedFloat

/-- The first whole number with fifty-four bits. -/
def exactLimit : Nat := 0x20000000000000

/-- A double is equal to a whole number of seconds that it can hold exactly. -/
def Seconds (time : Float) (count : Nat) : Prop :=
  count < exactLimit ∧ (time == Float.ofNat count) = true

/-- Whether a double is a number of seconds can be computed. -/
instance (time : Float) (count : Nat) : Decidable (Seconds time count) :=
  inferInstanceAs (Decidable (count < exactLimit ∧ (time == Float.ofNat count) = true))

/-- The binary places of a second that is counted in grains. -/
def secondPlaces : Nat :=
  1074

/-- The grains of some seconds. -/
def secondGrains (count : Nat) : Nat :=
  count * 2 ^ secondPlaces

/-- A whole number of seconds is short, and no double that holds it is infinite. -/
theorem secondGrains_exact {count : Nat} (exact : count < exactLimit) :
    Short (secondGrains count) ∧ secondGrains count < ceiling := by
  -- It has as many bits as its seconds, and stays far below the ceiling.
  have narrow : count < 2 ^ 53 := exact
  refine ⟨short_shifted narrow secondPlaces, ?_⟩
  calc count * 2 ^ secondPlaces
    _ < 2 ^ 53 * 2 ^ secondPlaces := Nat.mul_lt_mul_of_pos_right narrow (Nat.two_pow_pos _)
    _ = 2 ^ 52 * 2 ^ (secondPlaces + 1) := by
      rw [← Nat.pow_add, ← Nat.pow_add]
      congr 1
    _ ≤ ceiling :=
      Nat.mul_le_mul_left _ (Nat.pow_le_pow_right (by decide) (by decide))

/-- Numbers of seconds are in the order of their grains. -/
theorem secondGrains_le_iff {less more : Nat} :
    secondGrains less ≤ secondGrains more ↔ less ≤ more :=
  Nat.mul_le_mul_right_iff (Nat.two_pow_pos _)

/-- The double of an exact number stands for its grains. -/
theorem lasts_ofNat {count : Nat} (exact : count < exactLimit) :
    Lasts (Float.ofNat count) (secondGrains count) := by
  obtain ⟨short, finite⟩ := secondGrains_exact exact
  -- A literal that is small enough is converted exactly and multiplied by a power of ten.
  have small : count < 9007199254740992 ∧ 0 ≤ 22 := ⟨exact, by decide⟩
  have product : Float.ofNat count = count.toUInt64.toFloat * Float.ofBits 0x3FF0000000000000 :=
    dif_pos small
  have converted : Lasts count.toUInt64.toFloat (secondGrains count) := by
    have same : count.toUInt64.toNat = count := by
      rw [exactLimit] at exact
      exact Nat.mod_eq_of_lt (by omega)
    have normal := normalize_grains count secondPlaces .positive
    have kept : min (rounded (secondGrains count)) ceiling = secondGrains count := by
      rw [short.rounded]
      exact Nat.min_eq_left (Nat.le_of_lt finite)
    have unscaled : (secondPlaces : Int) - 1074 = 0 := rfl
    rw [← secondGrains, kept, unscaled] at normal
    show Grains (unpack .binary64 (pack .binary64
      (UnpackedFloat.normalize .binary64 (count.toUInt64.toNat : Int) 0 .positive))) _
    rwa [same]
  have one : ∃ positive, (Float.ofBits 0x3FF0000000000000).toModel.unpack =
      .finite .positive (2 ^ 52) (-52) positive := ⟨by decide, rfl⟩
  obtain ⟨positive, one⟩ := one
  -- A second is large enough for the product to be exact.
  have large : secondGrains count = 0 ∨ 52 ≤ extraPlaces (secondGrains count) := by
    rcases Nat.eq_zero_or_pos count with rfl | occupied
    · exact .inl (Nat.zero_mul _)
    · refine .inr ?_
      rw [extraPlaces, secondGrains, log2_zeros occupied, secondPlaces]
      omega
  rw [product]
  show Grains (unpack .binary64 (pack .binary64 (UnpackedFloat.mul .binary64
    count.toUInt64.toFloat.toModel.unpack (Float.ofBits 0x3FF0000000000000).toModel.unpack))) _
  rw [one]
  exact Grains.mul_one converted large finite positive

/-- A double is equal to a number of seconds if it stands for its grains. -/
theorem seconds_iff {time : Float} {count : Nat} :
    Seconds time count ↔ count < exactLimit ∧ Lasts time (secondGrains count) := by
  -- The double of the number stands for its grains, and so does what is equal to it.
  constructor
  · rintro ⟨exact, equal⟩
    exact ⟨exact, (lasts_ofNat exact).beq_iff.mp equal⟩
  · rintro ⟨exact, lasts⟩
    exact ⟨exact, (lasts_ofNat exact).beq_iff.mpr lasts⟩

/-- Whole numbers of seconds are in the order of their doubles. -/
theorem Seconds.le {first second : Float} {less more : Nat} (left : Seconds first less)
    (right : Seconds second more) (order : first ≤ second) : less ≤ more := by
  obtain ⟨-, one⟩ := seconds_iff.mp left
  obtain ⟨-, other⟩ := seconds_iff.mp right
  exact secondGrains_le_iff.mp ((one.le_iff other).mp order)

/-- The sum of two whole numbers of seconds is exact if it is not too large. -/
theorem Seconds.add {first second : Float} {more less : Nat} (left : Seconds first more)
    (right : Seconds second less) (exact : more + less < exactLimit) :
    Seconds (first + second) (more + less) := by
  obtain ⟨-, one⟩ := seconds_iff.mp left
  obtain ⟨-, other⟩ := seconds_iff.mp right
  have sum := one.add other
  -- The grains of the sum have no more bits than a double.
  obtain ⟨short, finite⟩ := secondGrains_exact exact
  have whole : secondGrains more + secondGrains less = secondGrains (more + less) :=
    (Nat.add_mul _ _ _).symm
  rw [whole, short.rounded, Nat.min_eq_left (Nat.le_of_lt finite)] at sum
  exact seconds_iff.mpr ⟨exact, sum⟩

/-- Two doubles are equal if they are the same number of seconds. -/
theorem Seconds.beq {first second : Float} {count : Nat} (left : Seconds first count)
    (right : Seconds second count) : (first == second) = true :=
  (seconds_iff.mp right).2.beq_iff.mpr (seconds_iff.mp left).2

/-- The difference of two whole numbers of seconds is exact. -/
theorem Seconds.sub {first second : Float} {more less : Nat} (left : Seconds first more)
    (right : Seconds second less) (order : less ≤ more) :
    Seconds (first - second) (more - less) := by
  obtain ⟨exact, one⟩ := seconds_iff.mp left
  obtain ⟨-, other⟩ := seconds_iff.mp right
  have small : more - less < exactLimit := by omega
  -- A difference has no more bits than the larger number of seconds.
  have difference :=
    one.sub other (secondGrains_le_iff.mpr order) (secondGrains_exact exact).2
  have whole : secondGrains more - secondGrains less = secondGrains (more - less) :=
    (Nat.sub_mul _ _ _).symm
  rw [whole, (secondGrains_exact small).1.rounded] at difference
  exact seconds_iff.mpr ⟨small, difference⟩

end Chip8
