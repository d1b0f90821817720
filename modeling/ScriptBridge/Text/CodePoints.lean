/-!
# Sets of code points

A set of characters as the ranges of code points that it covers.
-/

namespace ScriptBridge.Text

/-- A set of code points: the first and the last one of each of its ranges. -/
abbrev CodePointRanges := List (Nat × Nat)

/-- Whether a character belongs to a set of code points. -/
def CodePointRanges.covers (ranges : CodePointRanges) (character : Char) : Bool :=
  ranges.any fun range => range.1 ≤ character.toNat && character.toNat ≤ range.2

end ScriptBridge.Text
