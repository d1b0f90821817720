import Mathlib.Algebra.Order.Field.Power
import Mathlib.Algebra.Order.Field.Rat
import Mathlib.Tactic.Positivity
import ScriptBridge.Number.Floating

/-!
# Whole numbers

The exact value of a decoded number is a rational. The integer behind a number is
that value where the value is whole, and it is a 64-bit integer with no change
exactly as far as the range reaches; from there on it stops at the nearer end.
-/

namespace ScriptBridge

/-- The exact value of a finite number. -/
def Decoded.value? : Decoded → Option ℚ
  | .finite negative significand exponent =>
      let size : ℚ := significand * 2 ^ exponent
      some (if negative then -size else size)
  | _ => none

/-- The exact value of a finite number. -/
def Binary64.value? (number : Binary64) : Option ℚ := number.decode.value?

/-- The fraction that a significand is scaled to has its exact value. -/
theorem scaleDown_value (significand : Nat) (exponent : Int) :
    let scaled := scaleDown 2 significand 1 (-exponent)
    0 < scaled.2 ∧ (scaled.1 : ℚ) / scaled.2 = significand * 2 ^ exponent := by
  refine ⟨by simp [scaleDown], ?_⟩
  rcases Int.eq_nat_or_neg exponent with ⟨power, rfl | rfl⟩
  · simp [scaleDown]
  · simp [scaleDown, div_eq_mul_inv]

/-- A fraction is a natural number if and only if it divides without remainder. -/
theorem div_eq_natCast_iff {numerator denominator whole : Nat} (positive : 0 < denominator) :
    (numerator : ℚ) / denominator = whole ↔ numerator % denominator = 0 ∧ numerator / denominator = whole := by
  have nonzero : (denominator : ℚ) ≠ 0 := Nat.cast_ne_zero.mpr (Nat.pos_iff_ne_zero.mp positive)
  rw [div_eq_iff nonzero, ← Nat.cast_mul, Nat.cast_inj]
  constructor
  · rintro rfl
    exact ⟨Nat.mul_mod_left _ _, Nat.mul_div_cancel _ positive⟩
  · rintro ⟨divides, rfl⟩
    exact (Nat.div_mul_cancel (Nat.dvd_of_mod_eq_zero divides)).symm

/-- A signed number is an integer if and only if its size is a natural number. -/
theorem signed_eq_intCast_iff (negative : Bool) {size : ℚ} (bound : 0 ≤ size) {whole : Int} :
    (if negative then -size else size) = whole ↔
      ∃ natural : Nat, size = natural ∧ (if negative then -(natural : Int) else natural) = whole := by
  constructor
  · intro same
    have integer : size = ((if negative then -whole else whole : Int) : ℚ) := by
      cases negative
      · simpa using same
      · simpa [neg_eq_iff_eq_neg] using same
    rw [integer] at bound
    lift (if negative then -whole else whole) to Nat using (by exact_mod_cast bound) with natural isSize
    refine ⟨natural, by rw [integer, Int.cast_natCast], ?_⟩
    rw [isSize]
    cases negative <;> simp
  · rintro ⟨natural, rfl, rfl⟩
    cases negative <;> simp

/-- A decoded value is read as an integer if and only if it is that integer. -/
theorem Decoded.toInt?_eq_some_iff {decoded : Decoded} {whole : Int} :
    decoded.toInt? = some whole ↔ decoded.value? = some (whole : ℚ) := by
  cases decoded with
  | nan => simp [toInt?, value?]
  | infinite negative => simp [toInt?, value?]
  | finite negative significand exponent =>
      rcases scaleDown_value significand exponent with ⟨positive, exact⟩
      have bound : (0 : ℚ) ≤ significand * 2 ^ exponent := by positivity
      rw [value?, Option.some.injEq, signed_eq_intCast_iff negative bound, ← exact]
      simp only [div_eq_natCast_iff positive, toInt?]
      simp

/-- Outside its range an integer is read as the nearer end. -/
theorem toInt_saturateInt64 (whole : Int) :
    (saturateInt64 whole).toInt = max (-2 ^ 63) (min whole (2 ^ 63 - 1)) := by
  have least : Int64.minValue.toInt = -2 ^ 63 := by decide
  have greatest : Int64.maxValue.toInt = 2 ^ 63 - 1 := by decide
  rw [saturateInt64]
  split
  next below => omega
  next =>
    split
    next above => omega
    next => rw [Int64.toInt_ofInt_of_le (by omega) (by omega)]; omega

/-- The integer behind a number is its exact value, as far as the range reaches. -/
theorem Binary64.toInt64?_eq_some_iff {number : Binary64} {integer : Int64} :
    number.toInt64? = some integer ↔
      ∃ whole : Int, number.value? = some (whole : ℚ) ∧ integer.toInt = max (-2 ^ 63) (min whole (2 ^ 63 - 1)) := by
  simp only [toInt64?, Option.map_eq_some_iff, Decoded.toInt?_eq_some_iff, value?, ← toInt_saturateInt64, Int64.toInt_inj,
    eq_comm (a := integer)]

end ScriptBridge
