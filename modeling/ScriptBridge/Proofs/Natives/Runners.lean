import ScriptBridge.Context.Operation
import ScriptBridge.Proofs.Steps.Members

/-!
# Native calls

Operations once more, with the place where they run native code as a parameter. A
runner decides what becomes of a call of native code; the runner of a host runs the
code of the member. What operations do with native code is then a matter of how they
depend on the runner: an operation calls native code in certain ways only if all
runners that do the same in these ways make it end in the same way.
-/

namespace ScriptBridge

/-- The declared member that native code belongs to. -/
inductive NativeMember where
  /-- A method, a property accessor, an operator or a constructor. -/
  | method (method : Method)
  | indexer (owner : TypeRef) (property : PropertyDef) (accessor : MethodDef)
  | event (owner : TypeRef) (event : EventDef) (accessor : MethodDef)

namespace NativeMember

/-- The type that declares the member. -/
def owner : NativeMember → TypeRef
  | method declared => declared.owner
  | indexer owner _ _ => owner
  | event owner _ _ => owner

/-- The method whose code is run for the member. -/
def accessor : NativeMember → MethodDef
  | method declared => declared.definition
  | indexer _ _ accessor => accessor
  | event _ _ accessor => accessor

end NativeMember

/-- A call of native code: the member, what the script passed, and what the code gets to see. -/
structure NativeCall where
  member : NativeMember
  arguments : List ScriptValue
  invocation : Invocation

/-- What becomes of calls of native code. -/
abbrev NativeRunner := NativeCall → Bridge HostException Completion

namespace Host

variable (host : Host)

/-- The runner that runs the code of the member. -/
def runner : NativeRunner := fun call => host.runNative call.member.accessor call.invocation

section Members

variable (runner : NativeRunner)

/-- Calls a group: chooses a candidate, runs it, and pushes what it gives back. -/
def callGroupBy (group : OverloadGroup) (arguments : List ScriptValue) :
    Bridge ScriptError (List ScriptValue) := do
  let candidate ← host.resolveOverload group arguments
  let method := candidate.method.definition
  let hostArguments ← host.hostArguments candidate.specialization method.parameters
    (Context.inputsFor group candidate arguments)
  let (receiver, key) ← host.receiverFor group candidate arguments
  let completion ← ExceptT.adapt ScriptError.ofException (runner ⟨.method candidate.method, arguments,
    ⟨candidate.method.owner, receiver, hostArguments, candidate.specialization.arguments⟩⟩)
  writeBack key completion.receiver
  if group.shape = .construction then
    return [← Bridge.asScript (host.push (completion.receiver.getD .null))]
  else
    (returnedValues method completion).mapM fun value => Bridge.asScript (host.push value)

/-- Runs an accessor of a member on a receiver and writes a copied receiver back. -/
def runAccessorBy (member : NativeMember) (given : List ScriptValue)
    (receiver : Option (HostValue × ProxyKey)) (arguments : List HostValue) :
    Bridge HostException HostValue := do
  let completion ← runner ⟨member, given, ⟨member.owner, receiver.map Prod.fst, arguments, []⟩⟩
  writeBack (receiver.map Prod.snd) completion.receiver
  return completion.result

/-- Reads through the first indexer that has a getter and takes the key. -/
def getItemFromBy (owner : TypeRef) (given : List ScriptValue) (receiver : HostValue × ProxyKey)
    (key : ScriptValue) : List PropertyDef → Bridge ScriptError (List ScriptValue)
  | [] => return [.boolean false]
  | property :: rest => do
      match keyType? property, property.getter with
      | some type, some getter =>
          if ← host.fits key type then
            let index ← host.toHost key type
            let value ← ExceptT.adapt (host.accessorFailure "get" owner property.name)
              (runAccessorBy runner (.indexer owner property getter) given (some receiver) [index])
            return [.boolean true, ← Bridge.asScript (host.push value)]
          else getItemFromBy owner given receiver key rest
      | _, _ => getItemFromBy owner given receiver key rest

/-- Reads an item: true and the value, or false if no indexer takes the key. -/
def getItemBy (owner : TypeRef) (properties : List PropertyDef) (arguments : List ScriptValue) :
    Bridge ScriptError (List ScriptValue) := do
  match properties with
  | [] => return [.boolean false]
  | first :: _ =>
      let receiver ← host.expectInstance (argumentAt arguments 0) owner ("get prop " ++ first.name)
      host.getItemFromBy runner owner arguments receiver (argumentAt arguments 1) properties

/-- Writes through the first indexer that has a setter and takes the key. -/
def setItemInBy (owner : TypeRef) (given : List ScriptValue) (receiver : HostValue × ProxyKey)
    (key value : ScriptValue) : List PropertyDef → Bridge ScriptError (List ScriptValue)
  | [] => return [.boolean false]
  | property :: rest => do
      match keyType? property, property.setter with
      | some type, some setter =>
          if ← host.fits key type then
            if value.isNil || !(← host.fits value property.type) then
              throw (host.unexpectedValue owner property.name property.type)
            let index ← host.toHost key type
            let item ← host.toHost value property.type
            discard <| ExceptT.adapt (host.accessorFailure "set" owner property.name)
              (runAccessorBy runner (.indexer owner property setter) given (some receiver) [index, item])
            return [.boolean true]
          else setItemInBy owner given receiver key value rest
      | _, _ => setItemInBy owner given receiver key value rest

/-- Writes an item: true, or false if no indexer takes the key. -/
def setItemBy (owner : TypeRef) (properties : List PropertyDef) (arguments : List ScriptValue) :
    Bridge ScriptError (List ScriptValue) := do
  match properties with
  | [] => return [.boolean false]
  | first :: _ =>
      let receiver ← host.expectInstance (argumentAt arguments 0) owner ("set prop " ++ first.name)
      host.setItemInBy runner owner arguments receiver (argumentAt arguments 1) (argumentAt arguments 2)
        properties

/-- Subscribes a function to an event or takes it off again. -/
def changeEventBy (owner : TypeRef) (event : EventDef) (arguments : List ScriptValue) :
    Bridge ScriptError (List ScriptValue) := do
  let invalid : ScriptError :=
    .runtime ("invalid arguments to " ++ host.fullName owner ++ "." ++ event.name)
  let receiver ← host.memberReceiver event.isStatic owner ("access event " ++ event.name) arguments
  let first := if event.isStatic then 0 else 1
  match handlerAccessor? event (argumentAt arguments first) with
  | none => throw invalid
  | some accessor =>
      match argumentAt arguments (first + 1) with
      | .function handle =>
          let delegate ← host.toHost (.function handle) event.handlerType
          discard <| ExceptT.adapt ScriptError.ofException
            (runAccessorBy runner (.event owner event accessor) arguments receiver [delegate])
          return []
      | _ => throw invalid

/-- Constructs an instance; a copied type can always be made without arguments. -/
def constructGroupBy (group : OverloadGroup) (arguments : List ScriptValue) :
    Bridge ScriptError (List ScriptValue) := do
  if arguments.isEmpty && (host.definition group.owner).isValueType && !hasParameterless group then
    return [← Bridge.asScript (host.push (host.system.defaultValue group.owner))]
  else if group.isEmpty then
    throw (.runtime ("No constructor for " ++ host.fullName group.owner))
  else host.callGroupBy runner group arguments

/-- Runs the callable of a member; it makes no further calls. -/
def runMemberBy (callable : Callable) (arguments : List ScriptValue) :
    Bridge ScriptError (List ScriptValue) :=
  match callable with
  | .method group => host.callGroupBy runner group arguments
  | .itemGetter owner properties => host.getItemBy runner owner properties arguments
  | .itemSetter owner properties => host.setItemBy runner owner properties arguments
  | .event owner event => host.changeEventBy runner owner event arguments
  | .constructor group => host.constructGroupBy runner group arguments
  | other => host.runMember other arguments

/-- Makes the member of a placeholder, if this is its first use, and runs it. -/
def runPlaceholderBy (member : PendingMember) (arguments : List ScriptValue) :
    Bridge ScriptError (List ScriptValue) := do
  let handle ← host.resolveMember member
  match (← Bridge.context).callable? handle with
  | none => throw (.notCallable "function")
  | some callable => host.runMemberBy runner callable arguments

/-- Calls a callable with at most a given number of embedder functions nested in the call. -/
def invokeWithinBy (depth : Nat) : Invoker := fun handle arguments => do
  match (← Bridge.context).callable? handle with
  | none => throw (.notCallable "function")
  | some (.placeholder member) => host.runPlaceholderBy runner member arguments
  | some (.embedder _ body) =>
      match depth with
      | 0 => throw .tooDeep
      | depth + 1 => do
          let frame ← host.runProcedure (invokeWithinBy depth) (body arguments) (.ofArguments arguments)
          return frame.results
  | some callable => host.runMemberBy runner callable arguments

def invokeBy : Invoker := host.invokeWithinBy runner host.callDepth

end Members

/-- Walks a list of names from a value; what is missing on the way is nil. -/
def walkBy (invoke : Invoker) : ScriptValue → List String → Bridge ScriptError ScriptValue
  | current, [] => return current
  | current, segment :: rest => do
      if current.isNil then return .nil
      walkBy invoke (← host.indexBy invoke current (.string segment)) rest

/-- Performs an operation; requests that call nothing are performed as they are. -/
def performBy (runner : NativeRunner) : Operation → Bridge Failure Answer
  | .global path =>
      answerScript (do host.walkBy (host.invokeBy runner) (← Bridge.context).root (Text.segments path)) .value
  | .index target key => answerScript (host.indexBy (host.invokeBy runner) target key) .value
  | .assign target key value =>
      answerScript (host.assignBy (host.invokeBy runner) target key value) fun _ => .done
  | .call function arguments => answerScript (host.callBy (host.invokeBy runner) function arguments) .values
  | .construct function arguments =>
      answerScript (host.constructBy (host.invokeBy runner) function arguments) .values
  | .invokeMember target name arguments =>
      answerScript (host.invokeMemberBy (host.invokeBy runner) target name arguments) .values
  | .operate operator left right =>
      answerScript (host.operateBy (host.invokeBy runner) operator left right) .value
  | .text value => answerScript (host.textBy (host.invokeBy runner) value) .text
  | .invokeDelegate delegate arguments =>
      answerScript (do
        let values ← arguments.mapM fun value => Bridge.asScript (host.push value)
        host.callTargets (host.invokeBy runner) delegate values) .values
  | operation => host.perform operation

theorem callGroupBy_runner (group : OverloadGroup) (arguments : List ScriptValue) :
    host.callGroupBy host.runner group arguments = host.callGroup group arguments := rfl

theorem getItemFromBy_runner (owner : TypeRef) (given : List ScriptValue) (receiver : HostValue × ProxyKey)
    (key : ScriptValue) (properties : List PropertyDef) :
    host.getItemFromBy host.runner owner given receiver key properties =
      host.getItemFrom owner receiver key properties := by
  induction properties with
  | nil => rfl
  | cons property rest ih =>
      rw [getItemFromBy, getItemFrom, ih]
      cases keyType? property <;> cases property.getter <;> rfl

theorem getItemBy_runner (owner : TypeRef) (properties : List PropertyDef) (arguments : List ScriptValue) :
    host.getItemBy host.runner owner properties arguments = host.getItem owner properties arguments := by
  cases properties with
  | nil => rfl
  | cons first rest => exact bind_congr fun receiver => host.getItemFromBy_runner _ _ _ _ _

theorem setItemInBy_runner (owner : TypeRef) (given : List ScriptValue) (receiver : HostValue × ProxyKey)
    (key value : ScriptValue) (properties : List PropertyDef) :
    host.setItemInBy host.runner owner given receiver key value properties =
      host.setItemIn owner receiver key value properties := by
  induction properties with
  | nil => rfl
  | cons property rest ih =>
      rw [setItemInBy, setItemIn, ih]
      cases keyType? property <;> cases property.setter <;> rfl

theorem setItemBy_runner (owner : TypeRef) (properties : List PropertyDef) (arguments : List ScriptValue) :
    host.setItemBy host.runner owner properties arguments = host.setItem owner properties arguments := by
  cases properties with
  | nil => rfl
  | cons first rest => exact bind_congr fun receiver => host.setItemInBy_runner _ _ _ _ _ _

theorem changeEventBy_runner (owner : TypeRef) (event : EventDef) (arguments : List ScriptValue) :
    host.changeEventBy host.runner owner event arguments = host.changeEvent owner event arguments := by
  refine bind_congr fun receiver => ?_
  dsimp only
  cases handlerAccessor? event (argumentAt arguments (if event.isStatic = true then 0 else 1)) with
  | none => rfl
  | some accessor =>
      cases argumentAt arguments ((if event.isStatic = true then 0 else 1) + 1) <;> rfl

theorem runMemberBy_runner (callable : Callable) (arguments : List ScriptValue) :
    host.runMemberBy host.runner callable arguments = host.runMember callable arguments := by
  cases callable with
  | method group => exact host.callGroupBy_runner group arguments
  | itemGetter owner properties => exact host.getItemBy_runner owner properties arguments
  | itemSetter owner properties => exact host.setItemBy_runner owner properties arguments
  | event owner event => exact host.changeEventBy_runner owner event arguments
  | _ => rfl

theorem runPlaceholderBy_runner (member : PendingMember) (arguments : List ScriptValue) :
    host.runPlaceholderBy host.runner member arguments = host.runPlaceholder member arguments := by
  refine bind_congr fun handle => bind_congr fun context => ?_
  cases context.callable? handle with
  | none => rfl
  | some callable => exact host.runMemberBy_runner callable arguments

theorem invokeWithinBy_runner (depth : Nat) : host.invokeWithinBy host.runner depth = host.invokeWithin depth := by
  induction depth using Nat.strongRecOn with
  | _ depth ih =>
      funext handle arguments
      rw [invokeWithinBy, invokeWithin]
      refine bind_congr fun context => ?_
      cases context.callable? handle with
      | none => rfl
      | some callable =>
          cases callable with
          | placeholder member => exact host.runPlaceholderBy_runner member arguments
          | embedder name body =>
              cases depth with
              | zero => rfl
              | succ depth =>
                  dsimp only
                  rw [ih depth (Nat.lt_succ_self depth)]
          | _ => exact host.runMemberBy_runner _ arguments

theorem invokeBy_runner : host.invokeBy host.runner = host.invoke := host.invokeWithinBy_runner _

theorem walkBy_invoke (current : ScriptValue) (segments : List String) :
    host.walkBy host.invoke current segments = host.walk current segments := by
  induction segments generalizing current with
  | nil => rfl
  | cons segment rest ih => simp only [walkBy, walk, index, ih]

/-- With the runner of the host, operations do what they do. -/
theorem performBy_runner (operation : Operation) : host.performBy host.runner operation = host.perform operation := by
  cases operation with
  | global path => simp only [performBy, perform, global, invokeBy_runner, walkBy_invoke]
  | index => simp only [performBy, perform, index, invokeBy_runner]
  | assign => simp only [performBy, perform, assign, invokeBy_runner]
  | call => simp only [performBy, perform, call, invokeBy_runner]
  | construct => simp only [performBy, perform, construct, invokeBy_runner]
  | invokeMember => simp only [performBy, perform, invokeMember, invokeBy_runner]
  | operate => simp only [performBy, perform, operate, invokeBy_runner]
  | text => simp only [performBy, perform, text, invokeBy_runner]
  | invokeDelegate => simp only [performBy, perform, invokeDelegate, invokeBy_runner]
  | _ => rfl

open Bridge

/-- The runner does with the permitted calls what the host does with them. -/
def RunsAlike (permitted : World → NativeCall → Prop) (runner : NativeRunner) : Prop :=
  ∀ world call, permitted world call → exec (runner call) world = exec (host.runner call) world

/--
Every call of native code that the operation makes is permitted: whatever would become of
other calls, the operation ends in the same way.
-/
def CallsOnly (permitted : World → NativeCall → Prop) (operation : Operation) (world : World) : Prop :=
  ∀ runner, host.RunsAlike permitted runner →
    exec (host.performBy runner operation) world = exec (host.perform operation) world

end Host

end ScriptBridge
