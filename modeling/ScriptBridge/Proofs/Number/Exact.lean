import Mathlib.Tactic.Positivity
import Mathlib.Tactic.Ring
import ScriptBridge.Number.Floating

/-!
# Exact conversions

A number that a format can hold is encoded without rounding, and decoding gives
it back. A single therefore survives being widened to a double and narrowed
again; only the payload of a NaN is lost.
-/

namespace ScriptBridge

namespace BinaryFormat

variable {format : BinaryFormat} {significand : Nat} {exponent : Int}

/-- The numbers of a format in the one form in which it holds them. -/
structure Canonical (format : BinaryFormat) (significand : Nat) (exponent : Int) : Prop where
  small : significand < 2 * format.implicitBit
  lowest : format.minExponent ≤ exponent
  leading : format.implicitBit ≤ significand ∨ exponent = format.minExponent

/-- The bits of a number in the form in which the format holds it, without its sign. -/
def pattern (format : BinaryFormat) (significand : Nat) (exponent : Int) : Nat :=
  (exponent - format.minExponent).toNat * format.implicitBit + significand

theorem implicitBit_pos (format : BinaryFormat) : 0 < format.implicitBit := Nat.two_pow_pos _

theorem two_mul_implicitBit (positive : 0 < format.precision) :
    2 * format.implicitBit = 2 ^ format.precision := by
  rw [implicitBit, Nat.pow_eq, ← pow_succ']
  congr 1
  omega

theorem roundHalfEven_exact (quotient : Nat) {denominator : Nat} (positive : 0 < denominator) :
    roundHalfEven (quotient * denominator) denominator = quotient := by
  simp [roundHalfEven, Nat.mul_div_cancel _ positive, positive]

section Decode

variable {field fraction : Nat}

/-- What the fields of a pattern stand for. -/
theorem decode_fields (negative : Bool) (inRange : field < format.exponentCount)
    (below : fraction < format.implicitBit) :
    format.decode (format.signOf negative + (field * format.implicitBit + fraction)) =
      if field + 1 = format.exponentCount then
        if fraction = 0 then .infinite negative else .nan
      else if field = 0 then .finite negative fraction format.minExponent
      else .finite negative (format.implicitBit + fraction) (format.minExponent + field - 1) := by
  have unsigned : field * format.implicitBit + fraction < format.signBit := by
    have upTo : (field + 1) * format.implicitBit ≤ format.signBit := Nat.mul_le_mul_right _ inRange
    rw [Nat.succ_mul] at upTo
    omega
  have sign : decide (format.signBit ≤ format.signOf negative + (field * format.implicitBit + fraction)) =
      negative := by
    cases negative <;> simp [signOf, unsigned]
  have rest : (format.signOf negative + (field * format.implicitBit + fraction)) % format.signBit =
      field * format.implicitBit + fraction := by
    cases negative <;> simp [signOf, Nat.mod_eq_of_lt unsigned]
  have leading : (field * format.implicitBit + fraction) / format.implicitBit = field := by
    rw [Nat.mul_comm, Nat.mul_add_div format.implicitBit_pos, Nat.div_eq_of_lt below, Nat.add_zero]
  have last : (format.signOf negative + (field * format.implicitBit + fraction)) % format.implicitBit =
      fraction := by
    have whole : format.implicitBit ∣ format.signOf negative := by
      cases negative
      · exact Nat.dvd_zero _
      · exact Nat.dvd_mul_left _ _
    rcases whole with ⟨count, same⟩
    rw [same, ← Nat.add_assoc, Nat.mul_comm field, ← Nat.mul_add, Nat.mul_add_mod, Nat.mod_eq_of_lt below]
  rw [decode, sign, rest, leading, last]

/-- The bits of a pattern in fields. -/
theorem fields_of_bits {bits : Nat} (bounded : bits < 2 * format.signBit) :
    ∃ negative field fraction, field < format.exponentCount ∧ fraction < format.implicitBit ∧
      bits = format.signOf negative + (field * format.implicitBit + fraction) := by
  have signed : ∃ negative rest, rest < format.signBit ∧ bits = format.signOf negative + rest := by
    by_cases negative : format.signBit ≤ bits
    · exact ⟨true, bits - format.signBit, by omega, by simp only [signOf, if_true]; omega⟩
    · exact ⟨false, bits, by omega, by simp [signOf]⟩
  rcases signed with ⟨negative, rest, bound, rfl⟩
  refine ⟨negative, rest / format.implicitBit, rest % format.implicitBit, ?_,
    Nat.mod_lt _ format.implicitBit_pos, by rw [Nat.div_add_mod']⟩
  exact Nat.div_lt_of_lt_mul (by rw [Nat.mul_comm]; exact bound)

/-- The bits of a number that is held in canonical form, decoded. -/
theorem decode_pattern (canonical : format.Canonical significand exponent)
    (finite : format.pattern significand exponent < format.infinity) (negative : Bool) :
    format.decode (format.signOf negative + format.pattern significand exponent) =
      .finite negative significand exponent := by
  have positive := format.implicitBit_pos
  by_cases leads : format.implicitBit ≤ significand
  · have field : format.pattern significand exponent =
        ((exponent - format.minExponent).toNat + 1) * format.implicitBit + (significand - format.implicitBit) := by
      rw [pattern, Nat.succ_mul]
      omega
    have bound : (exponent - format.minExponent).toNat + 1 < format.exponentCount - 1 := by
      rw [field, infinity] at finite
      exact Nat.lt_of_mul_lt_mul_right (Nat.lt_of_le_of_lt (Nat.le_add_right _ _) finite)
    have small := canonical.small
    have lowest := canonical.lowest
    rw [field, decode_fields negative (by omega) (by omega), if_neg (by omega), if_neg (by omega),
      Nat.add_sub_cancel' leads]
    congr 1
    omega
  · rcases canonical.leading.resolve_left leads with rfl
    have field : format.pattern significand format.minExponent = 0 * format.implicitBit + significand := by
      simp [pattern]
    have bound : 0 < format.exponentCount - 1 := by
      rw [infinity] at finite
      exact Nat.pos_of_mul_pos_right (Nat.lt_of_le_of_lt (Nat.zero_le _) finite)
    rw [field, decode_fields negative (by omega) (by omega), if_neg (by omega), if_pos rfl]

/-- The bits of a pattern that stands for a number hold it in canonical form. -/
theorem pattern_of_decode {bits : Nat} {negative : Bool} (bounded : bits < 2 * format.signBit)
    (decoded : format.decode bits = .finite negative significand exponent) :
    bits = format.signOf negative + format.pattern significand exponent ∧
      format.Canonical significand exponent ∧ format.pattern significand exponent < format.infinity := by
  have positive := format.implicitBit_pos
  rcases fields_of_bits bounded with ⟨sign, field, fraction, inRange, below, rfl⟩
  rw [decode_fields sign inRange below] at decoded
  split at decoded
  next => split at decoded <;> cases decoded
  next notLast =>
    have finite : field * format.implicitBit + fraction < format.infinity := by
      have upTo : (field + 1) * format.implicitBit ≤ format.infinity := Nat.mul_le_mul_right _ (by omega)
      rw [Nat.succ_mul] at upTo
      omega
    split at decoded
    next zero =>
      cases decoded
      subst zero
      have same : format.pattern significand format.minExponent = 0 * format.implicitBit + significand := by
        simp [pattern]
      exact ⟨by rw [same], ⟨by omega, by omega, .inr rfl⟩, by rw [same]; exact finite⟩
    next positiveField =>
      cases decoded
      have same : format.pattern (format.implicitBit + fraction) (format.minExponent + field - 1) =
          field * format.implicitBit + fraction := by
        have above : (format.minExponent + field - 1 - format.minExponent).toNat = field - 1 := by omega
        rw [pattern, above, ← Nat.add_assoc, ← Nat.succ_mul]
        congr 2
        omega
      exact ⟨by rw [same], ⟨by omega, by omega, .inl (by omega)⟩, by rw [same]; exact finite⟩

theorem infinity_of_decode {bits : Nat} {negative : Bool} (bounded : bits < 2 * format.signBit)
    (decoded : format.decode bits = .infinite negative) : bits = format.signOf negative + format.infinity := by
  rcases fields_of_bits bounded with ⟨sign, field, fraction, inRange, below, rfl⟩
  rw [decode_fields sign inRange below] at decoded
  split at decoded
  next last =>
    split at decoded
    next zero =>
      cases decoded
      rw [infinity, zero, ← last]
      simp
    next => cases decoded
  next => split at decoded <;> cases decoded

theorem decode_infinity (positive : 0 < format.exponentCount) (negative : Bool) :
    format.decode (format.signOf negative + format.infinity) = .infinite negative := by
  have fields := @decode_fields format (format.exponentCount - 1) 0 negative (by omega) format.implicitBit_pos
  rw [if_pos (by omega), if_pos rfl] at fields
  exact fields

end Decode

section Encode

variable {other : Nat} {otherExponent : Int}

/-- Two ways to write a number as a multiple of a power of two. -/
def SameNumber (significand : Nat) (exponent : Int) (other : Nat) (otherExponent : Int) : Prop :=
  ∃ shift : Nat, other = significand * 2 ^ shift ∧ otherExponent = exponent - shift ∨
    significand = other * 2 ^ shift ∧ exponent = otherExponent - shift

/-- The quotient that a number is encoded by. -/
def quotientOf (significand : Nat) (exponent : Int) : Nat × Nat := scaleDown 2 significand 1 (-exponent)

/-- A number over a power of two that is no higher than its own is a whole number. -/
theorem scaleDown_of_le (same : SameNumber significand exponent other otherExponent) {scale : Int}
    (below : scale ≤ exponent) :
    ∃ common, scaleDown 2 (quotientOf other otherExponent).1 (quotientOf other otherExponent).2 scale =
      (significand * 2 ^ (exponent - scale).toNat * 2 ^ common, 2 ^ common) := by
  refine ⟨(-otherExponent).toNat + scale.toNat, ?_⟩
  rw [scaleDown, quotientOf, scaleDown, neg_neg, one_mul]
  refine Prod.ext ?_ (pow_add _ _ _).symm
  rcases same with ⟨shift, ⟨rfl, rfl⟩ | ⟨rfl, rfl⟩⟩
  · have powers : shift + (exponent - shift).toNat + (-scale).toNat =
        (exponent - scale).toNat + ((-(exponent - shift)).toNat + scale.toNat) := by omega
    calc significand * 2 ^ shift * 2 ^ (exponent - shift).toNat * 2 ^ (-scale).toNat
        = significand * 2 ^ (shift + (exponent - shift).toNat + (-scale).toNat) := by ring
      _ = significand * 2 ^ (exponent - scale).toNat * 2 ^ ((-(exponent - shift)).toNat + scale.toNat) := by
          rw [powers, pow_add, Nat.mul_assoc]
  · have powers : otherExponent.toNat + (-scale).toNat =
        shift + (otherExponent - shift - scale).toNat + ((-otherExponent).toNat + scale.toNat) := by omega
    calc other * 2 ^ otherExponent.toNat * 2 ^ (-scale).toNat
        = other * 2 ^ (otherExponent.toNat + (-scale).toNat) := by ring
      _ = other * 2 ^ shift * 2 ^ (otherExponent - shift - scale).toNat *
            2 ^ ((-otherExponent).toNat + scale.toNat) := by
          rw [powers]
          ring

theorem log2_mul_two_pow {number : Nat} (positive : 0 < number) (shift : Nat) :
    (number * 2 ^ shift).log2 = number.log2 + shift := by
  rw [Nat.log2_eq_iff (by positivity)]
  have bounds := (Nat.log2_eq_iff (Nat.pos_iff_ne_zero.mp positive)).mp (rfl : number.log2 = number.log2)
  constructor
  · rw [pow_add]
    exact Nat.mul_le_mul_right _ bounds.1
  · rw [Nat.add_right_comm, pow_add]
    exact Nat.mul_lt_mul_of_pos_right bounds.2 (by positivity)

theorem pos_of_sameNumber (same : SameNumber significand exponent other otherExponent) (positive : 0 < significand) :
    0 < other := by
  rcases same with ⟨shift, ⟨rfl, -⟩ | ⟨rfl, -⟩⟩
  · positivity
  · exact Nat.pos_of_mul_pos_right positive

/-- The leading bit of a number stands at the same power of two, however the number is written. -/
theorem log2_quotientOf (same : SameNumber significand exponent other otherExponent) (positive : 0 < significand) :
    ((quotientOf other otherExponent).1.log2 : Int) - (quotientOf other otherExponent).2.log2 =
      significand.log2 + exponent := by
  have otherPositive := pos_of_sameNumber same positive
  have leading : (other.log2 : Int) + otherExponent = significand.log2 + exponent := by
    rcases same with ⟨shift, ⟨rfl, rfl⟩ | ⟨rfl, rfl⟩⟩
    · rw [log2_mul_two_pow positive]
      omega
    · rw [log2_mul_two_pow otherPositive]
      omega
  rw [quotientOf, scaleDown, neg_neg, one_mul]
  simp only [Nat.pow_eq, log2_mul_two_pow otherPositive, Nat.log2_two_pow]
  omega

/-- The exponent that a number is encoded at is that of its canonical form. -/
theorem quotientExponent_eq (wide : 0 < format.precision) (canonical : format.Canonical significand exponent)
    (positive : 0 < significand) (same : SameNumber significand exponent other otherExponent) :
    format.quotientExponent (quotientOf other otherExponent).1 (quotientOf other otherExponent).2 = exponent := by
  have small := canonical.small
  have lowest := canonical.lowest
  have top := two_mul_implicitBit wide
  have high : significand.log2 < format.precision :=
    (Nat.log2_lt (Nat.pos_iff_ne_zero.mp positive)).mpr (by omega)
  rw [quotientExponent, log2_quotientOf same positive]
  by_cases bottom : exponent = format.minExponent
  · -- At the least exponent the number already fits.
    have start : max ((significand.log2 : Int) + exponent - format.precision) format.minExponent = exponent := by
      omega
    rcases scaleDown_of_le same (Int.le_refl exponent) with ⟨common, scaled⟩
    rw [start]
    simp only [scaled, Int.sub_self, Int.toNat_zero, pow_zero, Nat.mul_one, Nat.pow_eq]
    rw [Nat.mul_div_cancel _ (by positivity), if_pos (by omega)]
  · -- Otherwise the leading bit is set, and the first guess is one too low.
    have leads := canonical.leading.resolve_right bottom
    have full : significand.log2 = format.precision - 1 := by
      refine (Nat.log2_eq_iff (Nat.pos_iff_ne_zero.mp positive)).mpr ⟨leads, ?_⟩
      rw [Nat.sub_add_cancel wide]
      omega
    have start : max ((significand.log2 : Int) + exponent - format.precision) format.minExponent = exponent - 1 := by
      omega
    rcases scaleDown_of_le same (by omega : exponent - 1 ≤ exponent) with ⟨common, scaled⟩
    have one : (exponent - (exponent - 1)).toNat = 1 := by omega
    rw [start]
    simp only [scaled, one, pow_one, Nat.pow_eq]
    rw [Nat.mul_div_cancel _ (by positivity), if_neg (by omega)]
    omega

/-- A number that the format can hold is encoded as it is. -/
theorem encode_of_sameNumber (wide : 0 < format.precision) (canonical : format.Canonical significand exponent)
    (finite : format.pattern significand exponent < format.infinity)
    (same : SameNumber significand exponent other otherExponent) (negative : Bool) :
    format.encode (.finite negative other otherExponent) =
      format.signOf negative + format.pattern significand exponent := by
  have magnitude : format.magnitude (quotientOf other otherExponent).1 (quotientOf other otherExponent).2 =
      format.pattern significand exponent := by
    rw [BinaryFormat.magnitude]
    rcases Nat.eq_zero_or_pos significand with rfl | positive
    · have zero : other = 0 := by
        rcases same with ⟨shift, ⟨rfl, -⟩ | ⟨none, -⟩⟩
        · exact Nat.zero_mul _
        · exact (Nat.mul_eq_zero.mp none.symm).resolve_right (by positivity)
      have bottom := canonical.leading.resolve_left (by have := format.implicitBit_pos; omega)
      rw [if_pos (by simp [quotientOf, scaleDown, zero]), bottom]
      simp [pattern]
    · rcases scaleDown_of_le same (Int.le_refl exponent) with ⟨common, scaled⟩
      have otherPositive := pos_of_sameNumber same positive
      have present : (quotientOf other otherExponent).1 ≠ 0 :=
        Nat.mul_ne_zero (Nat.pos_iff_ne_zero.mp otherPositive) (Nat.pos_iff_ne_zero.mp (Nat.two_pow_pos _))
      rw [if_neg present, quotientExponent_eq wide canonical positive same]
      simp only [scaled, Int.sub_self, Int.toNat_zero, pow_zero, Nat.mul_one]
      rw [roundHalfEven_exact _ (by positivity), ← pattern]
      exact Nat.min_eq_left (Nat.le_of_lt finite)
  rw [encode, encodeQuotient, ← magnitude]
  rfl

end Encode

/-- Every single is a double. -/
theorem exists_double (canonical : single.Canonical significand exponent)
    (finite : single.pattern significand exponent < single.infinity) :
    ∃ wider lower, double.Canonical wider lower ∧ double.pattern wider lower < double.infinity ∧
      SameNumber wider lower significand exponent := by
  have small : significand < 2 ^ 24 := canonical.small
  have lowest : -149 ≤ exponent := canonical.lowest
  have bits : (exponent - -149).toNat * 2 ^ 23 + significand < 255 * 2 ^ 23 := finite
  rcases Nat.eq_zero_or_pos significand with rfl | positive
  · exact ⟨0, double.minExponent, ⟨by decide, Int.le_refl _, .inr rfl⟩, by decide, (exponent + 1074).toNat,
      .inr ⟨(Nat.zero_mul _).symm, by change (-1074 : Int) = _; omega⟩⟩
  · have log : significand.log2 < 24 := (Nat.log2_lt (Nat.pos_iff_ne_zero.mp positive)).mpr small
    have bounds := (Nat.log2_eq_iff (Nat.pos_iff_ne_zero.mp positive)).mp (rfl : significand.log2 = significand.log2)
    -- As many places to the left as the significand has room, and the exponent range lets it.
    obtain ⟨shift, room, reach, filled⟩ : ∃ shift : Nat, significand.log2 + shift ≤ 52 ∧
        (shift : Int) ≤ exponent + 1074 ∧ (significand.log2 + shift = 52 ∨ (shift : Int) = exponent + 1074) :=
      ⟨min (52 - significand.log2) (exponent + 1074).toNat, by omega, by omega, by omega⟩
    have fits : significand * 2 ^ shift < 2 ^ 53 := by
      refine Nat.lt_of_lt_of_le (Nat.mul_lt_mul_of_pos_right bounds.2 (Nat.two_pow_pos shift)) ?_
      rw [← pow_add]
      exact Nat.pow_le_pow_right (by decide) (by omega)
    refine ⟨significand * 2 ^ shift, exponent - shift, ⟨fits, ?_, ?_⟩, ?_, shift, .inr ⟨rfl, rfl⟩⟩
    · have least : double.minExponent = -1074 := rfl
      omega
    · rcases filled with full | bottom
      · left
        have leading : double.implicitBit = 2 ^ (significand.log2 + shift) := by rw [full]; rfl
        rw [leading, pow_add]
        exact Nat.mul_le_mul_right _ bounds.1
      · right
        have least : double.minExponent = -1074 := rfl
        omega
    · change (exponent - shift - -1074).toNat * 2 ^ 52 + significand * 2 ^ shift < 2047 * 2 ^ 52
      have high : (exponent - shift - -1074).toNat ≤ 1179 := by omega
      exact Nat.lt_of_lt_of_le (Nat.add_lt_add_of_le_of_lt (Nat.mul_le_mul_right _ high) fits) (by decide)

end BinaryFormat

namespace Binary32

open BinaryFormat

theorem decode_toUInt64 {bits : Nat} (bounded : bits < 2 ^ 64) :
    (Binary64.mk bits.toUInt64).decode = double.decode bits := by
  rw [Binary64.decode, Nat.toUInt64_eq, UInt64.toNat_ofNat', Nat.mod_eq_of_lt bounded]

theorem bits_lt (value : Binary32) : value.bits.toNat < 2 * single.signBit := value.bits.toNat_lt

theorem ofDecoded_eq {value : Binary32} {decoded : Decoded} (same : single.encode decoded = value.bits.toNat) :
    ofDecoded decoded = value := by
  rw [ofDecoded, same]
  simp

/-- A single that is widened and narrowed again is the same, to the last bit. -/
theorem narrow_widen {value : Binary32} (number : value.isNaN = false) : value.widen.narrow = value := by
  rw [isNaN, beq_eq_false_iff_ne] at number
  rw [Binary64.narrow, widen, Binary64.ofDecoded]
  cases decoded : value.decode with
  | nan => exact absurd decoded number
  | infinite negative =>
      have signed : double.signOf negative + double.infinity < 2 ^ 64 := by cases negative <;> decide
      rw [encode, decode_toUInt64 signed, decode_infinity (by decide)]
      exact ofDecoded_eq (infinity_of_decode value.bits_lt decoded).symm
  | finite negative significand exponent =>
      rcases pattern_of_decode value.bits_lt decoded with ⟨bits, canonical, finite⟩
      rcases exists_double canonical finite with ⟨wider, lower, wide, fits, shift, same⟩
      have signed : double.signOf negative + double.pattern wider lower < 2 ^ 64 := by
        have bound : double.infinity ≤ 2 ^ 63 := by decide
        have sign : double.signOf negative ≤ 2 ^ 63 := by cases negative <;> decide
        omega
      rw [encode_of_sameNumber (by decide) wide fits ⟨shift, same⟩, decode_toUInt64 signed, decode_pattern wide fits]
      refine ofDecoded_eq ?_
      rw [encode_of_sameNumber (by decide) canonical finite ⟨shift, same.symm⟩, bits]

theorem isNaN_narrow_widen {value : Binary32} (notNumber : value.isNaN = true) :
    value.widen.narrow.isNaN = true := by
  rw [isNaN, beq_iff_eq] at notNumber
  rw [Binary64.narrow, widen, notNumber]
  decide

end Binary32

end ScriptBridge
