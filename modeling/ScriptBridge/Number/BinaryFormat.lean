/-!
# Binary interchange formats

A binary floating-point format is fixed by its number of significant bits and
of exponent bits. This module reads a bit pattern as an exact dyadic number
and writes the pattern nearest to an exact quotient, ties to even.
-/

namespace ScriptBridge

/-- A binary interchange format: its significant bits and its exponent bits. -/
structure BinaryFormat where
  precision : Nat
  exponentBits : Nat
deriving DecidableEq

/-- What a bit pattern stands for; a finite value is `± significand · 2 ^ exponent`. -/
inductive Decoded where
  | nan
  | infinite (negative : Bool)
  | finite (negative : Bool) (significand : Nat) (exponent : Int)
deriving DecidableEq

/-- The quotient rounded to the nearest integer, a half to the even neighbour. -/
def roundHalfEven (numerator denominator : Nat) : Nat :=
  let quotient := numerator / denominator
  let remainder := numerator % denominator
  if 2 * remainder < denominator then quotient
  else if denominator < 2 * remainder then quotient + 1
  else if quotient % 2 = 0 then quotient
  else quotient + 1

/-- The fraction `numerator / denominator · base ^ (-exponent)` as a numerator and a denominator. -/
def scaleDown (base numerator denominator : Nat) (exponent : Int) : Nat × Nat :=
  (numerator * Nat.pow base (-exponent).toNat, denominator * Nat.pow base exponent.toNat)

namespace BinaryFormat

def double : BinaryFormat := ⟨53, 11⟩

def single : BinaryFormat := ⟨24, 8⟩

variable (format : BinaryFormat)

/-- The weight of the leading significant bit, which normal values do not store. -/
def implicitBit : Nat := Nat.pow 2 (format.precision - 1)

def exponentCount : Nat := Nat.pow 2 format.exponentBits

/-- The pattern of positive infinity: every exponent bit set and no fraction. -/
def infinity : Nat := (format.exponentCount - 1) * format.implicitBit

def signBit : Nat := format.exponentCount * format.implicitBit

/-- The power of two that the least positive value is. -/
def minExponent : Int := 3 - (Nat.pow 2 (format.exponentBits - 1) : Nat) - format.precision

def decode (bits : Nat) : Decoded :=
  let negative := decide (format.signBit ≤ bits)
  let field := bits % format.signBit / format.implicitBit
  let fraction := bits % format.implicitBit
  if field + 1 = format.exponentCount then
    if fraction = 0 then .infinite negative else .nan
  else if field = 0 then .finite negative fraction format.minExponent
  else .finite negative (format.implicitBit + fraction) (format.minExponent + field - 1)

def signOf (negative : Bool) : Nat := if negative then format.signBit else 0

/-- The exponent at which a positive quotient has at most `precision` significant bits. -/
def quotientExponent (numerator denominator : Nat) : Int :=
  let start := max ((numerator.log2 : Int) - denominator.log2 - format.precision) format.minExponent
  let scaled := scaleDown 2 numerator denominator start
  if scaled.1 / scaled.2 < Nat.pow 2 format.precision then start else start + 1

/-- The pattern nearest to a quotient of naturals, without its sign; what is too large is infinite. -/
def magnitude (numerator denominator : Nat) : Nat :=
  if numerator = 0 then 0
  else
    let exponent := format.quotientExponent numerator denominator
    let scaled := scaleDown 2 numerator denominator exponent
    min ((exponent - format.minExponent).toNat * format.implicitBit +
      roundHalfEven scaled.1 scaled.2) format.infinity

/-- The pattern nearest to `± numerator / denominator`. -/
def encodeQuotient (negative : Bool) (numerator denominator : Nat) : Nat :=
  format.signOf negative + format.magnitude numerator denominator

/-- The pattern nearest to a decoded value of any format; every NaN becomes the quiet one. -/
def encode : Decoded → Nat
  | .nan => format.infinity + format.implicitBit / 2
  | .infinite negative => format.signOf negative + format.infinity
  | .finite negative significand exponent =>
      let scaled := scaleDown 2 significand 1 (-exponent)
      format.encodeQuotient negative scaled.1 scaled.2

end BinaryFormat

end ScriptBridge
