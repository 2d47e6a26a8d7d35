import Mathlib.Algebra.Order.Floor.Semifield
import Mathlib.Data.Rat.Floor
import SchemaForge.Proofs.Number.Intervals

/-
The value of a finite number as a fraction, and its integer part. Cutting off what stands behind the point is rounding
towards zero: down from zero upwards, and up below it (`truncate?_eq`). Nothing is left of a number exactly when it lies
between minus one and one (`wholePart_eq_zero_iff`), so zero is not the only one.
-/

namespace SchemaForge.Binary64

def magnitude (x : Binary64) : ℚ := x.significand * (2 : ℚ) ^ x.exponent

/-- The value of a finite number. -/
def toRat (x : Binary64) : ℚ := if x.negative then -x.magnitude else x.magnitude

/-- A fraction rounded towards zero. -/
def wholePart (q : ℚ) : Int := if 0 ≤ q then ⌊q⌋ else ⌈q⌉

theorem wholePart_neg {q : ℚ} (hq : 0 ≤ q) : wholePart (-q) = -⌊q⌋ := by
  unfold wholePart
  by_cases hzero : q = 0
  · simp [hzero]
  · have hpos : 0 < q := lt_of_le_of_ne hq (Ne.symm hzero)
    rw [if_neg (by linarith), Int.ceil_neg]

theorem wholePart_eq_zero_iff {q : ℚ} : wholePart q = 0 ↔ |q| < 1 := by
  unfold wholePart
  rw [abs_lt]
  split
  · rename_i hq
    rw [Int.floor_eq_zero_iff, Set.mem_Ico]
    refine ⟨fun h => ⟨by linarith, h.2⟩, fun h => ⟨hq, h.2⟩⟩
  · rename_i hq
    rw [Int.ceil_eq_zero_iff, Set.mem_Ioc]
    have hq : q < 0 := not_le.mp hq
    refine ⟨fun h => ⟨h.1, by linarith⟩, fun h => ⟨h.1, hq.le⟩⟩

variable {x : Binary64}

theorem magnitude_nonneg (x : Binary64) : 0 ≤ x.magnitude := by
  unfold magnitude
  positivity

theorem toRat_eq_zero_iff : x.toRat = 0 ↔ x.isZero = true := by
  have hsignificand : x.significand = 0 ↔ x.isZero = true := by
    unfold significand isZero
    by_cases hbiased : x.biasedExponent = 0
    · simp [hbiased]
    · simp [hbiased]
  have hmagnitude : x.magnitude = 0 ↔ x.significand = 0 := by
    unfold magnitude
    rw [mul_eq_zero, Nat.cast_eq_zero]
    exact or_iff_left (zpow_ne_zero _ two_ne_zero)
  rw [← hsignificand, ← hmagnitude]
  unfold toRat
  split
  · exact neg_eq_zero
  · exact Iff.rfl

/-- The integer part of the magnitude, by shifting the significand. -/
theorem floor_magnitude (x : Binary64) :
    ⌊x.magnitude⌋ = ((if 0 ≤ x.exponent then x.significand * twoTo x.exponent.toNat
      else x.significand / twoTo (-x.exponent).toNat : Nat) : Int) := by
  unfold magnitude twoTo
  split
  · rename_i h
    obtain ⟨n, hn⟩ := Int.eq_ofNat_of_zero_le h
    rw [hn, zpow_natCast, Int.toNat_natCast]
    exact_mod_cast Int.floor_natCast (R := ℚ) (x.significand * 2 ^ n)
  · rename_i h
    obtain ⟨n, hn⟩ := Int.eq_ofNat_of_zero_le (show 0 ≤ -x.exponent by omega)
    have hvalue : (x.significand : ℚ) * (2 : ℚ) ^ x.exponent = (x.significand : ℚ) / ((2 ^ n : Nat) : ℚ) := by
      rw [show x.exponent = -(n : Int) by omega, zpow_neg, zpow_natCast, div_eq_mul_inv, Nat.cast_pow]
      rfl
    rw [hn, hvalue, Int.toNat_natCast, Rat.floor_natCast_div_natCast]
    rfl

/-- The integer part of a finite number is its value rounded towards zero. -/
theorem truncate?_eq (h : x.isFinite = true) : x.truncate? = some (wholePart x.toRat) := by
  unfold truncate? toRat
  rw [h]
  simp only [Bool.not_true, Bool.false_eq_true, if_false]
  cases x.negative with
  | true =>
    rw [if_pos rfl, if_pos rfl, wholePart_neg x.magnitude_nonneg, floor_magnitude]
  | false =>
    rw [if_neg Bool.false_ne_true, if_neg Bool.false_ne_true, wholePart, if_pos x.magnitude_nonneg, floor_magnitude]

end SchemaForge.Binary64
