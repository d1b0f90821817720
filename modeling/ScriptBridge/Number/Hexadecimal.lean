import ScriptBridge.Number.Floating

/-!
# Bit patterns as text

Floating-point values written as the hexadecimal digits of their patterns, so
that every value but NaN keeps its exact pattern; all NaNs are written alike.
-/

namespace ScriptBridge

/-- A natural number in at least `width` lower-case hexadecimal digits. -/
def hexText (width value : Nat) : String :=
  let digits := Nat.toDigits 16 value
  String.ofList (List.replicate (width - digits.length) '0' ++ digits)

def hexDigit? (character : Char) : Option Nat :=
  let code := character.toNat
  if '0'.toNat ≤ code ∧ code ≤ '9'.toNat then some (code - '0'.toNat)
  else if 'a'.toNat ≤ code ∧ code ≤ 'f'.toNat then some (code - 'a'.toNat + 10)
  else if 'A'.toNat ≤ code ∧ code ≤ 'F'.toNat then some (code - 'A'.toNat + 10)
  else none

/-- The number that hexadecimal digits stand for. -/
def hexValue? (digits : List Char) : Option Nat :=
  digits.foldl
    (fun value digit => do
      let high ← value
      let low ← hexDigit? digit
      return 16 * high + low)
    (some 0)

def Binary64.patternText (value : Binary64) : String :=
  if value.isNaN then "nan" else hexText 16 value.bits.toNat

def Binary32.patternText (value : Binary32) : String :=
  if value.isNaN then "nan" else hexText 8 value.bits.toNat

def Binary64.ofPatternText? (text : String) : Option Binary64 :=
  if text = "nan" then some (.ofDecoded .nan)
  else (hexValue? text.toList).map fun value => ⟨value.toUInt64⟩

def Binary32.ofPatternText? (text : String) : Option Binary32 :=
  if text = "nan" then some (.ofDecoded .nan)
  else (hexValue? text.toList).map fun value => ⟨value.toUInt32⟩

end ScriptBridge
