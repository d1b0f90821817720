import ScriptBridge.Host.Error
import ScriptBridge.Host.Show

/-!
# Native code

What the code of a method sees and may change: its receiver, its arguments, the
static slots of its declaring type, and the shared instances it can reach. An
exception ends the code but keeps what it already wrote into the store.
-/

namespace ScriptBridge

/-- A call of native code. -/
structure Invocation where
  declaringType : TypeRef
  /-- The receiver; of a constructor it is the fresh instance. -/
  receiver : Option HostValue
  /-- The arguments in order of declaration; out arguments are written by the code. -/
  arguments : List HostValue
  genericArguments : List TypeRef

/-- What native code leaves when it completes. -/
structure Completion where
  result : HostValue
  receiver : Option HostValue
  arguments : List HostValue

/-- A computation of native code over the host store. -/
abbrev NativeRun := ExceptT HostException (StateM HostStore)

abbrev NativeBody := TypeSystem → Invocation → NativeRun Completion

namespace Invocation

/-- The argument at a position, or the exception that it is missing. -/
def argument (invocation : Invocation) (position : Nat) : NativeRun HostValue :=
  match invocation.arguments[position]? with
  | some value => pure value
  | none => throw (.plain ("missing argument " ++ natText position))

def receiverSlot (system : TypeSystem) (invocation : Invocation) (name : String) : NativeRun HostValue := do
  let store ← get
  match invocation.receiver.bind fun value => store.slot? value name with
  | some value => return value
  | none =>
      throw (.plain (system.fullName invocation.declaringType ++ " has no instance field " ++ name))

/-- Writes a slot of the receiver and returns the invocation with the receiver as written. -/
def writeReceiverSlot (system : TypeSystem) (invocation : Invocation) (name : String)
    (value : HostValue) : NativeRun Invocation := do
  let store ← get
  match invocation.receiver.bind fun target => store.writeSlot? target name value with
  | some (written, changed) =>
      set changed
      return { invocation with receiver := some written }
  | none =>
      throw (.plain (system.fullName invocation.declaringType ++ " has no receiver for field " ++ name))

/-- The value of a static slot of the declaring type. -/
def staticSlot (system : TypeSystem) (invocation : Invocation) (name : String) : NativeRun HostValue := do
  match (← get).staticSlot? invocation.declaringType name with
  | some value => return value
  | none =>
      throw (.plain (system.fullName invocation.declaringType ++ " has no static field " ++ name))

/-- Writes a static slot of the declaring type. -/
def writeStaticSlot (invocation : Invocation) (name : String) (value : HostValue) : NativeRun Unit :=
  modify fun store => store.writeStatic invocation.declaringType name value

/-- The slot that an accessor of a declared property or event stands for. -/
def slot (system : TypeSystem) (invocation : Invocation) (name : String) (isStatic : Bool) :
    NativeRun HostValue :=
  if isStatic then invocation.staticSlot system name else invocation.receiverSlot system name

/-- Writes the slot that an accessor stands for. -/
def writeSlot (system : TypeSystem) (invocation : Invocation) (name : String) (isStatic : Bool)
    (value : HostValue) : NativeRun Invocation := do
  if isStatic then
    invocation.writeStaticSlot name value
    return invocation
  else invocation.writeReceiverSlot system name value

/-- The invocation as it stands, completed with a result. -/
def complete (invocation : Invocation) (result : HostValue) : Completion :=
  ⟨result, invocation.receiver, invocation.arguments⟩

/-- Changes the handler slot of an event by a delegate argument; null changes nothing. -/
def changeHandler (system : TypeSystem) (invocation : Invocation) (field : String) (isStatic : Bool)
    (change : HostValue → Delegate → HostValue) : NativeRun Completion := do
  match ← invocation.argument 0 with
  | .delegate handler =>
      let current ← invocation.slot system field isStatic
      let invocation ← invocation.writeSlot system field isStatic (change current handler)
      return invocation.complete .null
  | .null => return invocation.complete .null
  | other =>
      throw (.plain ("event handler must be a delegate, got " ++ system.inspect (← get) other))

end Invocation

/-- Runs the code of a method; a native body that does not exist returns null. -/
def MethodBody.run (natives : List NativeBody) (system : TypeSystem) (body : MethodBody)
    (invocation : Invocation) : NativeRun Completion :=
  match body with
  | .native index =>
      match natives[index]? with
      | some code => code system invocation
      | none => pure (invocation.complete .null)
  | .readSlot field isStatic => do
      return invocation.complete (← invocation.slot system field isStatic)
  | .writeSlot field isStatic => do
      let value ← invocation.argument 0
      let invocation ← invocation.writeSlot system field isStatic value
      return invocation.complete .null
  | .subscribe field isStatic => invocation.changeHandler system field isStatic Delegate.combine
  | .unsubscribe field isStatic => invocation.changeHandler system field isStatic Delegate.remove

end ScriptBridge
