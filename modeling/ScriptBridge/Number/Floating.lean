import ScriptBridge.Number.BinaryFormat

/-!
# Floating-point values

Single and double values are bit patterns, so that equality of values, numeric
equality and conversion are separate notions, each defined exactly.
-/

namespace ScriptBridge

namespace Decoded

/-- The integer a finite value is, when it has no fractional part. -/
def toInt? : Decoded → Option Int
  | .finite negative significand exponent =>
      let scaled := scaleDown 2 significand 1 (-exponent)
      if scaled.1 % scaled.2 = 0 then
        let size : Int := (scaled.1 / scaled.2 : Nat)
        some (if negative then -size else size)
      else none
  | _ => none

def negated : Decoded → Decoded
  | .nan => .nan
  | .infinite negative => .infinite !negative
  | .finite negative significand exponent => .finite (!negative) significand exponent

/-- The exact sum; it is a negative zero only if both parts are. -/
def add : Decoded → Decoded → Decoded
  | .nan, _ | _, .nan => .nan
  | .infinite left, .infinite right => if left = right then .infinite left else .nan
  | .infinite left, .finite _ _ _ => .infinite left
  | .finite _ _ _, .infinite right => .infinite right
  | .finite leftNegative leftSize leftExponent, .finite rightNegative rightSize rightExponent =>
      let exponent := min leftExponent rightExponent
      let part (negative : Bool) (size : Nat) (own : Int) : Int :=
        let size : Int := (size * Nat.pow 2 (own - exponent).toNat : Nat)
        if negative then -size else size
      let sum := part leftNegative leftSize leftExponent + part rightNegative rightSize rightExponent
      if sum = 0 then .finite (leftNegative && rightNegative) 0 exponent
      else .finite (decide (sum < 0)) sum.natAbs exponent

/-- The exact product; an infinity times zero is not a number. -/
def mul : Decoded → Decoded → Decoded
  | .nan, _ | _, .nan => .nan
  | .infinite left, .infinite right => .infinite (left != right)
  | .infinite left, .finite right size _ | .finite right size _, .infinite left =>
      if size = 0 then .nan else .infinite (left != right)
  | .finite leftNegative leftSize leftExponent, .finite rightNegative rightSize rightExponent =>
      .finite (leftNegative != rightNegative) (leftSize * rightSize) (leftExponent + rightExponent)

end Decoded

/-- A double-precision value. -/
structure Binary64 where
  bits : UInt64
deriving DecidableEq, Inhabited

/-- A single-precision value. -/
structure Binary32 where
  bits : UInt32
deriving DecidableEq, Inhabited

/-- An integer brought into the signed 64-bit range by stopping at its ends. -/
def saturateInt64 (value : Int) : Int64 :=
  if value ≤ Int64.minValue.toInt then Int64.minValue
  else if Int64.maxValue.toInt ≤ value then Int64.maxValue
  else Int64.ofInt value

namespace Binary64

def zero : Binary64 := ⟨0⟩

def decode (value : Binary64) : Decoded := BinaryFormat.double.decode value.bits.toNat

def ofDecoded (value : Decoded) : Binary64 := ⟨(BinaryFormat.double.encode value).toUInt64⟩

/-- The double nearest to a quotient of naturals. -/
def ofQuotient (numerator denominator : Nat) : Binary64 :=
  ⟨(BinaryFormat.double.encodeQuotient false numerator denominator).toUInt64⟩

def ofInt (value : Int) : Binary64 :=
  ⟨(BinaryFormat.double.encodeQuotient (decide (value < 0)) value.natAbs 1).toUInt64⟩

def isNaN (value : Binary64) : Bool := value.decode == .nan

/-- The place of a number among the doubles; both zeros have place zero. -/
def place (value : Binary64) : Int :=
  let size : Int := (value.bits.toNat % BinaryFormat.double.signBit : Nat)
  if BinaryFormat.double.signBit ≤ value.bits.toNat then -size else size

/-- The rounded product with a natural number. -/
def times (value : Binary64) (factor : Nat) : Binary64 :=
  .ofDecoded (match value.decode with
    | .finite negative significand exponent => .finite negative (significand * factor) exponent
    | other => other)

/-- Numeric equality: the zeros are equal and NaN equals nothing. -/
def equal (left right : Binary64) : Bool :=
  !left.isNaN && !right.isNaN && left.place == right.place

def less (left right : Binary64) : Bool :=
  !left.isNaN && !right.isNaN && decide (left.place < right.place)

def lessOrEqual (left right : Binary64) : Bool :=
  !left.isNaN && !right.isNaN && decide (left.place ≤ right.place)

/-- The 64-bit integer behind a number without fractional part; past either end of the range it is that end. -/
def toInt64? (value : Binary64) : Option Int64 := value.decode.toInt?.map saturateInt64

/-- Whether the value is finite and has no fractional part. -/
def isIntegral (value : Binary64) : Bool := value.decode.toInt?.isSome

def add (left right : Binary64) : Binary64 := .ofDecoded (left.decode.add right.decode)

def sub (left right : Binary64) : Binary64 := .ofDecoded (left.decode.add right.decode.negated)

def mul (left right : Binary64) : Binary64 := .ofDecoded (left.decode.mul right.decode)

end Binary64

namespace Binary32

def zero : Binary32 := ⟨0⟩

def decode (value : Binary32) : Decoded := BinaryFormat.single.decode value.bits.toNat

def ofDecoded (value : Decoded) : Binary32 := ⟨(BinaryFormat.single.encode value).toUInt32⟩

def isNaN (value : Binary32) : Bool := value.decode == .nan

def widen (value : Binary32) : Binary64 := .ofDecoded value.decode

def equal (left right : Binary32) : Bool := left.widen.equal right.widen

end Binary32

/-- The single nearest to a double, ties to even. -/
def Binary64.narrow (value : Binary64) : Binary32 := .ofDecoded value.decode

end ScriptBridge
