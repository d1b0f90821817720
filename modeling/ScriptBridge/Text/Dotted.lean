/-!
# Dotted names

Splitting a dotted name into its segments.
-/

namespace ScriptBridge.Text

/-- The pieces of a list between its separators. -/
def splitAt (separator : Char) : List Char → List (List Char)
  | [] => [[]]
  | character :: rest =>
      match splitAt separator rest with
      | [] => [[character]]
      | piece :: pieces =>
          if character = separator then [] :: piece :: pieces
          else (character :: piece) :: pieces

def segments (name : String) : List String :=
  ((splitAt '.' name.toList).filter (!·.isEmpty)).map String.ofList

/-- Whether the characters of one list open another. -/
def opens (start text : String) : Bool := start.toList.isPrefixOf text.toList

/-- What follows the given start, when the text has it. -/
def after? (start text : String) : Option String :=
  if opens start text then some (String.ofList (text.toList.drop start.toList.length)) else none

end ScriptBridge.Text
