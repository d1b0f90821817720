import ScriptBridge.Number.Shortest
import ScriptBridge.Number.Floating

/-!
# Printed numbers

How a binary value is written: plainly in positional digits, in the inspection
form that keeps a fractional part and switches to an exponent for extreme
sizes, and with a fixed number of places.
-/

namespace ScriptBridge

def natText (value : Nat) : String := String.ofList (Nat.toDigits 10 value)

def intText (value : Int) : String :=
  if value < 0 then "-" ++ natText value.natAbs else natText value.natAbs

/-- The text padded with blanks on the left up to a width. -/
def padLeft (width : Nat) (text : String) : String :=
  String.ofList (List.replicate (width - text.length) ' ') ++ text

namespace Decimal

/-- The digits with the point set before the last `places` of them. -/
def withPoint (digits places : Nat) : String :=
  let characters := Nat.toDigits 10 digits
  let padded := List.replicate (places + 1 - characters.length) '0' ++ characters
  let whole := padded.take (padded.length - places)
  let fraction := padded.drop (padded.length - places)
  if fraction.isEmpty then String.ofList whole
  else String.ofList whole ++ "." ++ String.ofList fraction

/-- All digits in their positions, never an exponent. -/
def positional (decimal : Decimal) : String :=
  if decimal.exponent < 0 then withPoint decimal.digits (-decimal.exponent).toNat
  else natText (decimal.digits * Nat.pow 10 decimal.exponent.toNat)

/-- One digit, the others after the point, and the power of ten. -/
def scientific (decimal : Decimal) : String :=
  let characters := Nat.toDigits 10 decimal.digits
  let power := decimal.exponent + characters.length - 1
  withPoint decimal.digits (characters.length - 1) ++ "e" ++ intText power

/-- The inspection form is scientific below `10 ^ (-4)` and from `10 ^ 16` on. -/
def inspected (decimal : Decimal) : String :=
  let power := decimal.exponent + (Nat.toDigits 10 decimal.digits).length - 1
  if power < -4 ∨ 16 ≤ power then decimal.scientific
  else if decimal.exponent < 0 then decimal.positional
  else decimal.positional ++ ".0"

end Decimal

/-- How the text of a value is made from its shortest decimal. -/
structure NumberStyle where
  ofDecimal : Decimal → String
  ofZero : String

/-- Plain text has no exponent and no empty fraction. -/
def NumberStyle.plain : NumberStyle := ⟨Decimal.positional, "0"⟩

/-- Inspected text shows that a value is no integer type. -/
def NumberStyle.inspected : NumberStyle := ⟨Decimal.inspected, "0.0"⟩

/-- The text of a decoded value; its digits are the fewest that read back in the format. -/
def BinaryFormat.text (format : BinaryFormat) (style : NumberStyle) : Decoded → String
  | .nan => "NaN"
  | .infinite negative => if negative then "-inf" else "inf"
  | .finite negative significand exponent =>
      let size :=
        if significand = 0 then style.ofZero
        else style.ofDecimal (format.shortest significand exponent)
      if negative then "-" ++ size else size

def Binary64.text (value : Binary64) : String := BinaryFormat.double.text .plain value.decode

def Binary64.inspect (value : Binary64) : String := BinaryFormat.double.text .inspected value.decode

def Binary32.inspect (value : Binary32) : String := BinaryFormat.single.text .inspected value.decode

/-- A finite non-negative double with a fixed number of places, a half to the even neighbour. -/
def Binary64.fixed (places : Nat) (value : Binary64) : String :=
  match value.decode with
  | .finite _ significand exponent =>
      let binary := scaleDown 2 significand 1 (-exponent)
      Decimal.withPoint (roundHalfEven (binary.1 * Nat.pow 10 places) binary.2) places
  | _ => value.text

end ScriptBridge
