import ScriptBridge.Number.Printed

/-!
# Host-side failures

The reasons for which a type cannot be resolved, and the exceptions that
native code throws.
-/

namespace ScriptBridge

/-- Why a type, or the types of a signature, could not be resolved. -/
inductive TypeResolutionError where
  | typeNotFound (name : String)
  | duplicateType (name : String)
  | unboundGeneric (index : Nat)
  | noConstraint (method : String) (index : Nat)
deriving DecidableEq

def TypeResolutionError.message : TypeResolutionError → String
  | .typeNotFound name => "Type not found: " ++ name
  | .duplicateType name => "Type already registered: " ++ name
  | .unboundGeneric index => "Unbound method generic parameter !!" ++ natText index
  | .noConstraint method index =>
      "Generic parameter " ++ natText index ++ " of " ++ method ++
        " has no constraint to specialize to"

/-- An exception thrown by native code. -/
structure HostException where
  message : String
  stackTrace : String
deriving DecidableEq

def HostException.plain (message : String) : HostException := ⟨message, ""⟩

end ScriptBridge
