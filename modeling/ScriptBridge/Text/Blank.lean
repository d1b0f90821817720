/-!
# Blank characters

The characters with the Unicode property White_Space, and trimming by them.
-/

namespace ScriptBridge.Text

/-- The characters with the property White_Space. -/
def isBlank (character : Char) : Bool :=
  let code := character.toNat
  (9 ≤ code && code ≤ 13) || code == 0x20 || code == 0x85 || code == 0xa0 || code == 0x1680 ||
    (0x2000 ≤ code && code ≤ 0x200a) || code == 0x2028 || code == 0x2029 || code == 0x202f ||
    code == 0x205f || code == 0x3000

/-- Without the blank characters at either end. -/
def trim (characters : List Char) : List Char :=
  ((characters.dropWhile isBlank).reverse.dropWhile isBlank).reverse

/-- Trimmed, with the ASCII letters in lower case. -/
def normalized (text : String) : String :=
  String.ofList ((trim text.toList).map Char.toLower)

end ScriptBridge.Text
