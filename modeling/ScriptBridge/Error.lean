import ScriptBridge.Host.Error

/-!
# Failures of the bridge

Why a type could not be bound, and why a script operation failed, with the
texts that scripts and embedders see.
-/

namespace ScriptBridge

/-- Why a type could not be bound. -/
inductive BindError where
  | missingBinding (type : String)
  | missingTable (type : String)
  | namespaceConflict (path type : String)
  | callableLimit
  | typeResolution (cause : TypeResolutionError)
  /-- Binding went deeper than the number of types allows; see `Host.bindWithin`. -/
  | tooDeep
  /-- A reference without an instance was handed out; none of the host is. -/
  | missingInstance
deriving DecidableEq

/-- The name of the kind of a binding failure. -/
def BindError.kind : BindError → String
  | .missingBinding _ => "MissingBinding"
  | .missingTable _ => "MissingClassTable"
  | .namespaceConflict _ _ => "NamespaceConflict"
  | .callableLimit => "CallableLimit"
  | .typeResolution _ => "TypeResolution"
  | .tooDeep => "TooDeep"
  | .missingInstance => "MissingInstance"

def BindError.message : BindError → String
  | .missingBinding type => "can not find the metatable for " ++ type
  | .missingTable type => "can not find the class for " ++ type
  | .namespaceConflict path type => path ++ " is not a table, cannot place " ++ type ++ " under it"
  | .callableLimit => "too many native callables registered in one context"
  | .typeResolution cause => "Type resolution failed: " ++ cause.message
  | .tooDeep => "types are bound too deeply"
  | .missingInstance => "the instance of a reference is missing"

/-- Why a script operation failed. -/
inductive ScriptError where
  | memberNotFound (type member : String)
  | noMatchingOverload (type member : String)
  | typeMismatch (text : String)
  | noSuchField (type member : String)
  | invocation (message stackTrace : String)
  | staleProxy (type : String)
  | notCallable (kind : String)
  | notIndexable (kind : String)
  | runtime (text : String)
  /-- Embedder functions call each other deeper than the host allows. -/
  | tooDeep
deriving DecidableEq

namespace ScriptError

/-- The name of the kind of a script failure. -/
def kind : ScriptError → String
  | .memberNotFound _ _ => "MemberNotFound"
  | .noMatchingOverload _ _ => "NoMatchingOverload"
  | .typeMismatch _ => "TypeMismatch"
  | .noSuchField _ _ => "NoSuchField"
  | .invocation _ _ => "Invocation"
  | .staleProxy _ => "StaleProxy"
  | .notCallable _ => "NotCallable"
  | .notIndexable _ => "NotIndexable"
  | .runtime _ => "Runtime"
  | .tooDeep => "TooDeep"

def message : ScriptError → String
  | .memberNotFound type member => "can not find " ++ member ++ " for " ++ type
  | .noMatchingOverload type member =>
      "invalid arguments to " ++ type ++ "." ++ member ++ ": no matching overload"
  | .typeMismatch text => text
  | .noSuchField type member => "cannot set " ++ member ++ " on " ++ type ++ ", no such field"
  | .invocation message stackTrace => "host exception: " ++ message ++ ", stack: " ++ stackTrace
  | .staleProxy type => "attempt to use a released " ++ type
  | .notCallable kind => "attempt to call a " ++ kind ++ " value"
  | .notIndexable kind => "attempt to index a " ++ kind ++ " value"
  | .runtime text => text
  | .tooDeep => "calls are nested too deeply"

/-- An exception of native code as scripts see it. -/
def ofException (exception : HostException) : ScriptError :=
  .invocation exception.message exception.stackTrace

def ofBindError (error : BindError) : ScriptError := .runtime error.message

end ScriptError

end ScriptBridge
