import ScriptBridge.Context.Dispatch
import ScriptBridge.Script.Frame

/-!
# Calls

Calling a callable. Members run at once, and a placeholder runs the member that
it makes; embedder functions can call back, so their calls nest, to a depth that
the host bounds. The operations of scripts follow, with calls made in this way.
-/

namespace ScriptBridge.Host

variable (host : Host)

/-- Reads an argument of a frame as a value of a host type. -/
def readArgument (frame : Frame) (position : Nat) (type : TypeRef) : Bridge ScriptError HostValue := do
  let value := frame.argument position
  if ← host.fits value type then host.toHost value type
  else
    throw (.typeMismatch ("#" ++ natText (position + 1) ++ " expected " ++ host.fullName type ++
      ", got " ++ value.kindName))

/-- Adds the script value of a host value to the results of a frame. -/
def pushResult (frame : Frame) (value : HostValue) : Bridge ScriptError Frame := do
  return frame.push (← Bridge.asScript (host.push value))

/-- Runs an embedder function over the frame of its call. -/
def runProcedure (invoke : Invoker) : Procedure → Frame → Bridge ScriptError Frame
  | .finish, frame => return frame
  | .fail message, _ => throw (.runtime message)
  | .report name arguments next, frame => do
      Bridge.report name arguments
      runProcedure invoke next frame
  | .push value next, frame => runProcedure invoke next (frame.push value)
  | .pushHost value next, frame => do
      runProcedure invoke next (← host.pushResult frame value)
  | .read position type next, frame => do
      let value ← host.readArgument frame position type
      runProcedure invoke (next value) frame
  | .describe value next, frame => do
      let text := host.system.showValue (← Bridge.store) value
      runProcedure invoke (next text) frame
  | .index target key next, frame => do
      let value ← host.indexBy invoke target key
      runProcedure invoke (next value) frame
  | .assign target key value next, frame => do
      host.assignBy invoke target key value
      runProcedure invoke next frame
  | .call function arguments next, frame => do
      let results ← host.callBy invoke function arguments
      runProcedure invoke (next results) frame
  | .member target name arguments next, frame => do
      let results ← host.invokeMemberBy invoke target name arguments
      runProcedure invoke (next results) frame
  | .release target next, frame => do
      let released ← release target
      runProcedure invoke (next released) frame

/-- Runs the callable of a member; it makes no further calls. -/
def runMember (callable : Callable) (arguments : List ScriptValue) :
    Bridge ScriptError (List ScriptValue) :=
  match callable with
  | .method group => host.callGroup group arguments
  | .fieldGetter field => host.getField field arguments
  | .fieldSetter field => host.setField field arguments
  | .itemGetter owner properties => host.getItem owner properties arguments
  | .itemSetter owner properties => host.setItem owner properties arguments
  | .event owner event => host.changeEvent owner event arguments
  | .constructor group => host.constructGroup group arguments
  | .delegateConstructor type => host.wrapDelegate type arguments
  | .enumCast type => host.castToEnum type arguments
  | .placeholder _ | .embedder _ _ => throw (.notCallable "function")

/-- Makes the member of a placeholder, if this is its first use, and runs it. -/
def runPlaceholder (member : PendingMember) (arguments : List ScriptValue) :
    Bridge ScriptError (List ScriptValue) := do
  let handle ← host.resolveMember member
  match (← Bridge.context).callable? handle with
  | none => throw (.notCallable "function")
  | some callable => host.runMember callable arguments

/-- Calls a callable with at most a given number of embedder functions nested in the call. -/
def invokeWithin (depth : Nat) : Invoker := fun handle arguments => do
  match (← Bridge.context).callable? handle with
  | none => throw (.notCallable "function")
  | some (.placeholder member) => host.runPlaceholder member arguments
  | some (.embedder _ body) =>
      match depth with
      | 0 => throw .tooDeep
      | depth + 1 => do
          let frame ← host.runProcedure (invokeWithin depth) (body arguments) (.ofArguments arguments)
          return frame.results
  | some callable => host.runMember callable arguments

def invoke : Invoker := host.invokeWithin host.callDepth

def index (target key : ScriptValue) : Bridge ScriptError ScriptValue := host.indexBy host.invoke target key

def assign (target key value : ScriptValue) : Bridge ScriptError Unit :=
  host.assignBy host.invoke target key value

def call (function : ScriptValue) (arguments : List ScriptValue) : Bridge ScriptError (List ScriptValue) :=
  host.callBy host.invoke function arguments

/-- Constructs an instance of the type that a table stands for. -/
def construct (function : ScriptValue) (arguments : List ScriptValue) :
    Bridge ScriptError (List ScriptValue) :=
  host.constructBy host.invoke function arguments

def invokeMember (target : ScriptValue) (name : String) (arguments : List ScriptValue) :
    Bridge ScriptError (List ScriptValue) :=
  host.invokeMemberBy host.invoke target name arguments

def operate (operator : Operator) (left right : ScriptValue) : Bridge ScriptError ScriptValue :=
  host.operateBy host.invoke operator left right

def text (value : ScriptValue) : Bridge ScriptError String := host.textBy host.invoke value

/-- Hands host values to every target of a delegate; the results are those of the last. -/
def invokeDelegate (delegate : Delegate) (arguments : List HostValue) :
    Bridge ScriptError (List ScriptValue) := do
  let values ← arguments.mapM fun value => Bridge.asScript (host.push value)
  host.callTargets host.invoke delegate values

/-- Walks a list of names from a value; what is missing on the way is nil. -/
def walk : ScriptValue → List String → Bridge ScriptError ScriptValue
  | current, [] => return current
  | current, segment :: rest => do
      if current.isNil then return .nil
      walk (← host.index current (.string segment)) rest

/-- Walks a dotted path from the root, binding the types on it. -/
def global (path : String) : Bridge ScriptError ScriptValue := do
  host.walk (← Bridge.context).root (Text.segments path)

end ScriptBridge.Host
