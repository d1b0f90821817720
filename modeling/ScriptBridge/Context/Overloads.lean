import ScriptBridge.Context.Binding

/-!
# Choosing and calling methods

A call goes to the candidate whose arguments fit best: the one with the best
worst tier, then with the fewest inexact tiers, then declared first. The
arguments are converted, the native code runs, and its result and out arguments
become the results of the call.
-/

namespace ScriptBridge

namespace Context

variable (system : TypeSystem) (context : Context)

/-- The tiers of the arguments that a variadic parameter collects: one array, or each an element. -/
def variadicTiers? (type : TypeRef) (inputs : List ScriptValue) : Option (List Tier) :=
  let wholeArray : Option Tier :=
    match inputs with
    | [single] => context.compatibility system single type
    | _ => none
  match wholeArray with
  | some tier => some [tier]
  | none =>
      match type.element? with
      | none => none
      | some element =>
          if inputs.all fun input => context.fits system input element then
            some (if inputs.isEmpty then [.variadic] else inputs.map fun _ => .variadic)
          else none

/-- The tiers of arguments against the parameters they are passed to, if every one fits. -/
def tiers? (specialization : Specialization) : List Parameter → List ScriptValue → Option (List Tier)
  | [], _ => some []
  | parameter :: parameters, inputs =>
      match specialization.resolve parameter.type with
      | .error _ => none
      | .ok type =>
          if parameter.isVariadic then context.variadicTiers? system type inputs
          else
            match inputs with
            | [] => none
            | input :: rest => do
                let tier ← context.compatibility system input type
                let others ← tiers? specialization parameters rest
                return tier :: others

/-- Whether a number of arguments can be passed to a method. -/
def acceptsCount (method : MethodDef) (count : Nat) : Bool :=
  count = method.inputArity || (method.isVariadic && method.inputArity ≤ count + 1)

/-- The arguments that are passed to the parameters of a candidate. -/
def inputsFor (group : OverloadGroup) (candidate : Candidate) (arguments : List ScriptValue) :
    List ScriptValue :=
  arguments.drop (group.receiverCount candidate)

/-- The rank of a candidate for some arguments, if it matches them. -/
def rank? (group : OverloadGroup) (arguments : List ScriptValue) (candidate : Candidate) : Option Rank :=
  let inputs := inputsFor group candidate arguments
  let method := candidate.method.definition
  if acceptsCount method inputs.length then
    (context.tiers? system candidate.specialization method.inputs inputs).map Rank.ofTiers
  else none

def firstBest : List (Rank × Candidate) → Option (Rank × Candidate)
  | [] => none
  | ranked :: rest =>
      match firstBest rest with
      | none => some ranked
      | some best => if best.1.better ranked.1 then some best else some ranked

/-- The candidate that a call with some arguments goes to. -/
def choose? (group : OverloadGroup) (arguments : List ScriptValue) : Option Candidate :=
  (firstBest (group.candidates.filterMap fun candidate =>
    (context.rank? system group arguments candidate).map fun rank => (rank, candidate))).map Prod.snd

end Context

namespace Host

variable (host : Host)

/-- The candidate that a call goes to, or the failure that none matches. -/
def resolveOverload (group : OverloadGroup) (arguments : List ScriptValue) : Bridge ScriptError Candidate := do
  let chosen := (← Bridge.context).choose? host.system group arguments
  Bridge.count (·.countResolution chosen.isSome)
  match chosen with
  | some candidate => return candidate
  | none => throw (.noMatchingOverload (host.fullName group.owner) group.name)

/-- The host value of a script value for a slot of a type. -/
def toHost (value : ScriptValue) (type : TypeRef) : Bridge ScriptError HostValue := do
  Bridge.ofExcept ((← Bridge.context).toHost host.system value type)

/-- Whether a value can be passed where a type is expected. -/
def fits {ε : Type} (value : ScriptValue) (type : TypeRef) : Bridge ε Bool := do
  return (← Bridge.context).fits host.system value type

/-- A new array of the host values of some inputs. -/
def gatherArray (type element : TypeRef) (inputs : List ScriptValue) : Bridge ScriptError HostValue := do
  let elements ← inputs.mapM fun input => host.toHost input element
  let (array, store) := (← Bridge.store).newArray type elements
  Bridge.setStore store
  return array

/-- The array that a variadic parameter receives: the only argument itself, or a new array of all. -/
def collectVariadic (type : TypeRef) (inputs : List ScriptValue) : Bridge ScriptError HostValue := do
  let context ← Bridge.context
  let wholeArray : Option ScriptValue :=
    match inputs with
    | [single] => if context.fits host.system single type then some single else none
    | _ => none
  match wholeArray with
  | some single => host.toHost single type
  | none =>
      match type.element? with
      | none => throw (.typeMismatch (host.fullName type ++ " is not an array type"))
      | some element => host.gatherArray type element inputs

/-- The host arguments of a call, one for each parameter in order of declaration. -/
def hostArguments (specialization : Specialization) :
    List Parameter → List ScriptValue → Bridge ScriptError (List HostValue)
  | [], _ => return []
  | parameter :: parameters, inputs => do
      match specialization.resolve parameter.type with
      | .error error => throw (.runtime error.message)
      | .ok type =>
          if parameter.mode = .out then
            return host.system.defaultValue type :: (← hostArguments specialization parameters inputs)
          else if parameter.isVariadic then
            let collected ← host.collectVariadic type inputs
            return collected :: (← hostArguments specialization parameters [])
          else
            let value ← host.toHost (inputs.headD .nil) type
            return value :: (← hostArguments specialization parameters inputs.tail)

/-- Runs native code; what it wrote into the store stays, whether it completes or not. -/
def runNative (method : MethodDef) (invocation : Invocation) : Bridge HostException Completion := do
  let (result, store) := ((method.body.run host.natives host.system invocation).run).run (← Bridge.store)
  Bridge.setStore store
  Bridge.ofExcept result

/-- Writes a copied receiver back to its proxy as the native code left it. -/
def writeBack {ε : Type} (key : Option ProxyKey) (receiver : Option HostValue) : Bridge ε Unit := do
  match key, receiver with
  | some key, some value => if value.isCopied then Bridge.updateProxy key value
  | _, _ => return

/-- The receiver of a method of a group, with its proxy key. -/
def methodReceiver (group : OverloadGroup) (arguments : List ScriptValue) :
    Bridge ScriptError (HostValue × ProxyKey) := do
  let target := arguments.headD .nil
  let owner := host.fullName group.owner
  let wrongTarget : ScriptError :=
    .typeMismatch ("target for " ++ owner ++ "." ++ group.name ++ " should be " ++ owner ++
      ", got " ++ target.kindName)
  match target with
  | .proxy proxy =>
      match (← Bridge.context).cache.resolve? proxy with
      | none => throw (.staleProxy (host.fullName proxy.type))
      | some value =>
          if ← host.fits target group.owner then return (value, proxy.key) else throw wrongTarget
  | _ => throw wrongTarget

def freshInstance {ε : Type} (type : TypeRef) : Bridge ε HostValue := do
  let object := host.system.newInstance type
  if (host.definition type).isValueType then return .copied object
  else
    let (reference, store) := (← Bridge.store).allocate object
    Bridge.setStore store
    return .object reference

/-- The receiver that a call of a candidate works on, and the key it is written back to. -/
def receiverFor (group : OverloadGroup) (candidate : Candidate) (arguments : List ScriptValue) :
    Bridge ScriptError (Option HostValue × Option ProxyKey) := do
  match group.shape with
  | .onInstance =>
      if candidate.isExtension then return (none, none)
      let (value, key) ← host.methodReceiver group arguments
      return (some value, some key)
  | .construction => return (some (← host.freshInstance group.owner), none)
  | .onType => return (none, none)

/-- The values that go back to the script: the result of a method that has one, then what it wrote. -/
def returnedValues (method : MethodDef) (completion : Completion) : List HostValue :=
  (if method.returns.isSome then [completion.result] else []) ++
    ((method.parameters.zip completion.arguments).filter fun pair => pair.1.mode ≠ .byValue).map Prod.snd

/-- Calls a group: chooses a candidate, runs it, and pushes what it gives back. -/
def callGroup (group : OverloadGroup) (arguments : List ScriptValue) :
    Bridge ScriptError (List ScriptValue) := do
  let candidate ← host.resolveOverload group arguments
  let method := candidate.method.definition
  let hostArguments ← host.hostArguments candidate.specialization method.parameters
    (Context.inputsFor group candidate arguments)
  let (receiver, key) ← host.receiverFor group candidate arguments
  let completion ← ExceptT.adapt ScriptError.ofException (host.runNative method
    ⟨candidate.method.owner, receiver, hostArguments, candidate.specialization.arguments⟩)
  writeBack key completion.receiver
  if group.shape = .construction then
    return [← Bridge.asScript (host.push (completion.receiver.getD .null))]
  else
    (returnedValues method completion).mapM fun value => Bridge.asScript (host.push value)

end Host

end ScriptBridge
