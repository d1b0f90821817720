import ScriptBridge.Script.Value

/-!
# Call frames

The window of one native call: the arguments it was given and the results it
has produced so far.
-/

namespace ScriptBridge

/-- The arguments and results of one call. -/
structure Frame where
  arguments : List ScriptValue
  results : List ScriptValue

namespace Frame

def ofArguments (arguments : List ScriptValue) : Frame := ⟨arguments, []⟩

/-- The argument at a position; past the end it is nil. -/
def argument (frame : Frame) (position : Nat) : ScriptValue := frame.arguments.getD position .nil

def argumentCount (frame : Frame) : Nat := frame.arguments.length

def push (frame : Frame) (value : ScriptValue) : Frame :=
  { frame with results := frame.results ++ [value] }

def firstResult (frame : Frame) : ScriptValue := frame.results.headD .nil

end Frame

end ScriptBridge
