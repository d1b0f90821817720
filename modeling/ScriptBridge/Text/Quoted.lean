import ScriptBridge.Text.Combining
import ScriptBridge.Text.Invisible

/-!
# Quoted text

Text between quotes in which every character can be told apart: quotes and
backslashes are escaped, and a character without a glyph of its own is written
by number.
-/

namespace ScriptBridge.Text

/-- Whether quoted text shows a character by its number. -/
def isHidden (character : Char) : Bool := isInvisible character || isCombining character

/-- The number of a character in hexadecimal, between braces. -/
def byNumber (character : Char) : String :=
  "\\u\x7b" ++ String.ofList (Nat.toDigits 16 character.toNat) ++ "\x7d"

/-- One character of quoted text; only the quote in use is escaped. -/
def escaped (quote character : Char) : String :=
  if character = '\x00' then "\\0"
  else if character = '\t' then "\\t"
  else if character = '\n' then "\\n"
  else if character = '\r' then "\\r"
  else if character = quote ∨ character = '\\' then "\\" ++ character.toString
  else if isHidden character then byNumber character
  else character.toString

def quoted (text : String) : String :=
  "\"" ++ String.join (text.toList.map (escaped '"')) ++ "\""

def quotedChar (character : Char) : String :=
  "'" ++ escaped '\'' character ++ "'"

end ScriptBridge.Text
