import ScriptBridge.Number.BinaryFormat

/-!
# Shortest decimals

The shortest decimal that reads back as a given binary value: of all decimals
in the interval of reals that round to the value, one with the fewest digits,
and of those the nearest, the upper one on a tie.
-/

namespace ScriptBridge

/-- The decimal `digits · 10 ^ exponent`. -/
structure Decimal where
  digits : Nat
  exponent : Int
deriving DecidableEq

/-- The reals that round to a positive binary value, in units of a quarter of its last place. -/
structure RoundingInterval where
  lower : Nat
  value : Nat
  upper : Nat
  closed : Bool
  /-- The power of two that one quarter unit is. -/
  unit : Int
deriving DecidableEq

namespace BinaryFormat

/-- The rounding interval of `significand · 2 ^ exponent`; below a power of two the values lie twice as dense. -/
def interval (format : BinaryFormat) (significand : Nat) (exponent : Int) : RoundingInterval where
  lower :=
    if significand = format.implicitBit ∧ format.minExponent < exponent then 4 * significand - 1
    else 4 * significand - 2
  value := 4 * significand
  upper := 4 * significand + 2
  closed := significand % 2 == 0
  unit := exponent - 2

end BinaryFormat

namespace RoundingInterval

variable (interval : RoundingInterval)

/-- A number of units as a numerator and a denominator over `10 ^ exponent`. -/
def scaled (units : Nat) (exponent : Int) : Nat × Nat :=
  let binary := scaleDown 2 units 1 (-interval.unit)
  scaleDown 10 binary.1 binary.2 exponent

/-- Whether `candidate · 10 ^ exponent` lies in the interval. -/
def contains (candidate : Nat) (exponent : Int) : Bool :=
  let lower := interval.scaled interval.lower exponent
  let upper := interval.scaled interval.upper exponent
  if interval.closed then
    decide (lower.1 ≤ candidate * lower.2) && decide (candidate * upper.2 ≤ upper.1)
  else
    decide (lower.1 < candidate * lower.2) && decide (candidate * upper.2 < upper.1)

/-- The neighbour of the value on the grid `10 ^ exponent` that lies in the interval, the nearer of two. -/
def candidate? (exponent : Int) : Option Decimal :=
  let value := interval.scaled interval.value exponent
  let below := value.1 / value.2
  let remainder := value.1 % value.2
  match interval.contains below exponent, interval.contains (below + 1) exponent with
  | true, true => some ⟨if 2 * remainder < value.2 then below else below + 1, exponent⟩
  | true, false => some ⟨below, exponent⟩
  | false, true => some ⟨below + 1, exponent⟩
  | false, false => none

/-- The first grid, from coarse to fine, on which a neighbour of the value lies in the interval. -/
def search : Nat → Int → Decimal
  | 0, exponent =>
      let value := interval.scaled interval.value exponent
      ⟨value.1 / value.2, exponent⟩
  | steps + 1, exponent => (interval.candidate? exponent).getD (search steps (exponent - 1))

end RoundingInterval

/-- The exponent of a power of ten above `significand · 2 ^ exponent`. -/
def decimalCeiling (significand : Nat) (exponent : Int) : Int :=
  ((significand.log2 + 1 : Int) + exponent) * 30103 / 100000 + 1

/-- The shortest decimal that reads back as the positive value `significand · 2 ^ exponent`. -/
def BinaryFormat.shortest (format : BinaryFormat) (significand : Nat) (exponent : Int) : Decimal :=
  (format.interval significand exponent).search 25 (decimalCeiling significand exponent)

end ScriptBridge
