import ScriptBridge.Context.Members

/-!
# Operations of scripts

Reading, writing and calling values as scripts do it. A member lookup walks the
type and then its base chain, and passes over types that are not bound: a read
that misses everywhere is nil, a write that misses everywhere fails. Callables
are called through a parameter, because some of them use these operations again.
-/

namespace ScriptBridge

/-- A way to call a callable with arguments; it gives the results. -/
abbrev Invoker := CallableHandle → List ScriptValue → Bridge ScriptError (List ScriptValue)

namespace Host

variable (host : Host) (invoke : Invoker)

def firstResult (handle : CallableHandle) (arguments : List ScriptValue) :
    Bridge ScriptError ScriptValue := do
  return (← invoke handle arguments).headD .nil

/-- The element position that an integer names in a list of a given length. -/
def position? (length : Nat) (index : Int64) : Option Nat :=
  if 0 ≤ index.toInt ∧ index.toInt < length then some index.toInt.toNat else none

/-- The failure of a position that is not in the array. -/
def outOfRange (index : Int64) : ScriptError :=
  .runtime ("index " ++ intText index.toInt ++ " out of range")

/-- Reads from an instance of an array type: its length, or the element at an integer key. -/
def readArray (value : HostValue) (type : TypeRef) (key : ScriptValue) :
    Bridge ScriptError (Option ScriptValue) := do
  match value.asObject?, type.element? with
  | some reference, some _ =>
      let elements := (((← Bridge.store).instance? reference).map (·.elements)).getD []
      if key = .string "Length" then return some (.integer (Int64.ofNat elements.length))
      match key.asInteger? with
      | none => return none
      | some index =>
          match (position? elements.length index).bind fun position => elements[position]? with
          | some element => return some (← Bridge.asScript (host.push element))
          | none => throw (outOfRange index)
  | _, _ => return none

/-- Writes an element of an instance of an array type; a key that is no integer is not for arrays. -/
def writeArray (value : HostValue) (type : TypeRef) (key item : ScriptValue) : Bridge ScriptError Bool := do
  match value.asObject?, type.element?, key.asInteger? with
  | some reference, some element, some index =>
      if !(← host.fits item element) then
        throw (.typeMismatch (host.fullName type ++ "[" ++ intText index.toInt ++ "] Expected type " ++
          host.fullName element))
      let converted ← host.toHost item element
      let store ← Bridge.store
      let length := ((store.instance? reference).map (·.elements.length)).getD 0
      match (position? length index).bind fun position =>
          store.writeElement? reference position converted with
      | some store =>
          Bridge.setStore store
          return true
      | none => throw (outOfRange index)
  | _, _, _ => return false

def liveValue (proxy : Proxy) : Bridge ScriptError HostValue := do
  match (← Bridge.context).cache.resolve? proxy with
  | some value => return value
  | none => throw (.staleProxy (host.fullName proxy.type))

/-- The slot of a name among members of an instance: a method, or a getter. -/
inductive InstanceMember where
  | method (handle : CallableHandle)
  | getter (handle : CallableHandle)

/-- The member that a key names in a binding; a method hides a getter of its name. -/
def instanceMember? (binding : TypeBinding) (key : ScriptValue) : Option InstanceMember :=
  match key with
  | .string name =>
      match binding.slot? .methods name, binding.slot? .getters name with
      | some slot, _ => some (.method slot.handle)
      | none, some slot => some (.getter slot.handle)
      | none, none => none
  | _ => none

/-- What the indexers of a binding give for a key, if one takes it. -/
def readItem (binding : TypeBinding) (target key : ScriptValue) :
    Bridge ScriptError (Option ScriptValue) := do
  match binding.itemGetter with
  | none => return none
  | some getter =>
      match ← invoke getter [target, key] with
      | .boolean true :: value :: _ => return some value
      | _ => return none

/-- Reads a key of an instance along a chain of types. -/
def readAlong (proxy : Proxy) (value : HostValue) (key : ScriptValue) :
    List TypeRef → Bridge ScriptError ScriptValue
  | [] => return .nil
  | type :: rest => do
      match (← Bridge.context).binding? type with
      | none => readAlong proxy value key rest
      | some binding =>
          match instanceMember? binding key with
          | some (.method handle) => return .function handle
          | some (.getter handle) => firstResult invoke handle [.proxy proxy]
          | none =>
              match ← host.readArray value type key with
              | some found => return found
              | none =>
                  match ← readItem invoke binding (.proxy proxy) key with
                  | some found => return found
                  | none => readAlong proxy value key rest

def indexInstance (proxy : Proxy) (key : ScriptValue) : Bridge ScriptError ScriptValue := do
  let value ← host.liveValue proxy
  Bridge.asScript (host.ensureBound proxy.type)
  let chain := (← Bridge.context).lookupChain host.system proxy.type
  host.readAlong invoke proxy value key chain

/-- The failure of a write that no member takes. -/
def noSuchField (type : TypeRef) (key : ScriptValue) : ScriptError :=
  .noSuchField (host.fullName type) key.keyText

/-- Whether the indexers of a binding took a write. -/
def writeItem (binding : TypeBinding) (target key item : ScriptValue) : Bridge ScriptError Bool := do
  match binding.itemSetter with
  | none => return false
  | some setter => return (← firstResult invoke setter [target, key, item]) = .boolean true

/-- Writes a key of an instance along a chain of types. -/
def writeAlong (proxy : Proxy) (value : HostValue) (key item : ScriptValue) :
    List TypeRef → Bridge ScriptError Unit
  | [] => throw (host.noSuchField proxy.type key)
  | type :: rest => do
      match (← Bridge.context).binding? type with
      | none => writeAlong proxy value key item rest
      | some binding =>
          match key.asString?.bind fun name => binding.slot? .setters name with
          | some slot => discard (invoke slot.handle [.proxy proxy, item])
          | none =>
              if ← host.writeArray value type key item then return
              else if ← writeItem invoke binding (.proxy proxy) key item then return
              else writeAlong proxy value key item rest

def assignInstance (proxy : Proxy) (key item : ScriptValue) : Bridge ScriptError Unit := do
  let value ← host.liveValue proxy
  Bridge.asScript (host.ensureBound proxy.type)
  let chain := (← Bridge.context).lookupChain host.system proxy.type
  host.writeAlong invoke proxy value key item chain

/-- Reads a static member along a chain of types; tables of ancestors are searched too. -/
def readStaticAlong (name : String) : Bool → List TypeRef → Bridge ScriptError (Option ScriptValue)
  | _, [] => return none
  | isFirst, type :: rest => do
      let context ← Bridge.context
      match context.binding? type with
      | none => readStaticAlong name false rest
      | some binding =>
          let entry := if isFirst then .nil else context.heap.get binding.classTable (.string name)
          if !entry.isNil then return some entry
          match binding.slot? .classMethods name, binding.slot? .classGetters name with
          | some slot, _ => return some (.function slot.handle)
          | none, some slot => return some (← firstResult invoke slot.handle [])
          | none, none => readStaticAlong name false rest

/-- Reads a key that the table of a type does not have: a static member, or a nested type. -/
def indexType (type : TypeRef) (key : ScriptValue) : Bridge ScriptError ScriptValue := do
  match key.asString? with
  | none => return .nil
  | some name =>
      let chain := (← Bridge.context).lookupChain host.system type
      match ← readStaticAlong invoke name true chain with
      | some found => return found
      | none =>
          match host.registry.get? (host.fullName type ++ "+" ++ name) with
          | some nested => Bridge.asScript (host.loadClass nested)
          | none => return .nil

/-- The first setter of a name along a chain of types. -/
def staticSetter? (context : Context) (name : String) (chain : List TypeRef) : Option MemberSlot :=
  chain.findSome? fun type =>
    (context.binding? type).bind fun binding => binding.slot? .classSetters name

/-- Writes a key that the table of a type does not have: a static member. -/
def assignType (type : TypeRef) (key item : ScriptValue) : Bridge ScriptError Unit := do
  let context ← Bridge.context
  let chain := context.lookupChain host.system type
  match key.asString?.bind fun name => staticSetter? context name chain with
  | some slot => discard (invoke slot.handle [item])
  | none => throw (host.noSuchField type key)

/-- Reads a key that a namespace does not have: a type, which is bound, or a deeper namespace. -/
def indexNamespace (table : TableId) (path : String) (key : ScriptValue) :
    Bridge ScriptError ScriptValue := do
  match key.asString? with
  | none => return .nil
  | some name =>
      let fullName := NamespaceTree.extendPath path name
      match host.registry.get? fullName with
      | some type => Bridge.asScript (host.loadClass type)
      | none =>
          if host.registry.hasNamespace host.system fullName then
            let deeper ← Bridge.createTable (.space fullName)
            Bridge.writeEntry table name (.table deeper)
            return .table deeper
          else return .nil

/-- Reads a key of a table; what the table does not have depends on what it stands for. -/
def indexTable (id : TableId) (key : ScriptValue) : Bridge ScriptError ScriptValue := do
  let heap := (← Bridge.context).heap
  let entry := (ScriptKey.ofValue? key).elim .nil (heap.get id)
  if !entry.isNil then return entry
  match heap.kind? id with
  | some (.type type) => host.indexType invoke type key
  | some (.space path) => host.indexNamespace id path key
  | _ => return .nil

def indexBy (target key : ScriptValue) : Bridge ScriptError ScriptValue :=
  match target with
  | .proxy proxy => host.indexInstance invoke proxy key
  | .table id => host.indexTable invoke id key
  | other => throw (.notIndexable other.kindName)

/-- Writes a key of a table; a key that the table of a type does not have is a static member. -/
def assignTable (id : TableId) (key item : ScriptValue) : Bridge ScriptError Unit := do
  match ScriptKey.ofValue? key with
  | none => throw (.runtime ("invalid table key " ++ key.kindName))
  | some entry =>
      let heap := (← Bridge.context).heap
      let write : Bridge ScriptError Unit :=
        Bridge.modifyContext fun context => { context with heap := context.heap.set id entry item }
      match heap.typeOf? id with
      | some type => if (heap.get id entry).isNil then host.assignType invoke type key item else write
      | none => write

def assignBy (target key item : ScriptValue) : Bridge ScriptError Unit :=
  match target with
  | .proxy proxy => host.assignInstance invoke proxy key item
  | .table id => host.assignTable invoke id key item
  | other => throw (.notIndexable other.kindName)

/-- Calls each target of a delegate in order; the results are those of the last. -/
def callTargets (delegate : Delegate) (arguments : List ScriptValue) :
    Bridge ScriptError (List ScriptValue) :=
  delegate.targets.foldlM
    (fun _ target =>
      match CallableHandle.ofTarget? target with
      | some handle => invoke handle arguments
      | none => throw (.notCallable (host.fullName delegate.type)))
    []

/-- Constructs an instance of the type that a table stands for. -/
def constructBy (function : ScriptValue) (arguments : List ScriptValue) :
    Bridge ScriptError (List ScriptValue) := do
  let context ← Bridge.context
  match function.asTable?.bind context.heap.typeOf? with
  | none => throw (.notCallable function.kindName)
  | some type =>
      match context.binding? type with
      | none => throw (.ofBindError (.missingBinding (host.fullName type)))
      | some binding =>
          match binding.constructor with
          | some handle => invoke handle arguments
          | none => throw (.runtime ("No constructor for " ++ host.fullName type))

/-- Calls a value: a function, the table of a type, or a proxy of a delegate. -/
def callBy (function : ScriptValue) (arguments : List ScriptValue) :
    Bridge ScriptError (List ScriptValue) := do
  match function with
  | .function handle => invoke handle arguments
  | .proxy proxy =>
      match (← Bridge.context).cache.resolve? proxy with
      | some (.delegate delegate) => host.callTargets invoke delegate arguments
      | some _ => throw (.notCallable (host.fullName proxy.type))
      | none => throw (.staleProxy (host.fullName proxy.type))
  | .table id =>
      if ((← Bridge.context).heap.typeOf? id).isSome then host.constructBy invoke function arguments
      else throw (.notCallable function.kindName)
  | other => throw (.notCallable other.kindName)

/-- What messages call the target of a member call. -/
def targetName (context : Context) (target : ScriptValue) : String :=
  match target with
  | .proxy proxy => host.fullName proxy.type
  | .table id => ((context.heap.typeOf? id).map host.fullName).getD "table"
  | other => other.kindName

/-- Calls a member by name; an instance is passed to its member as the first argument. -/
def invokeMemberBy (target : ScriptValue) (name : String) (arguments : List ScriptValue) :
    Bridge ScriptError (List ScriptValue) := do
  let function ← host.indexBy invoke target (.string name)
  if function.isNil then
    throw (.memberNotFound (host.targetName (← Bridge.context) target) name)
  match target with
  | .proxy _ => host.callBy invoke function (target :: arguments)
  | _ => host.callBy invoke function arguments

/-- The callable for an operator that the type of an operand provides. -/
def operatorOf? (context : Context) (operand : ScriptValue) (operator : Operator) :
    Option CallableHandle := do
  let proxy ← operand.asProxy?
  let binding ← context.binding? proxy.type
  binding.operators.get? operator

/--
Applies an operator. The left operand's type is asked first, then the right
one's; without either, equality is identity and other operators fail.
-/
def operateBy (operator : Operator) (left right : ScriptValue) : Bridge ScriptError ScriptValue := do
  let context ← Bridge.context
  match (operatorOf? context left operator).or (operatorOf? context right operator) with
  | some handle => firstResult invoke handle (if operator.isUnary then [left] else [left, right])
  | none =>
      if operator = .eq then return .boolean (left.equal right)
      else
        let culprit := if left.asProxy?.isSome then left else right
        let name := (culprit.asProxy?.map fun proxy => host.fullName proxy.type).getD culprit.kindName
        throw (.runtime ("attempt to perform " ++ operator.scriptName ++ " on a " ++ name ++ " value"))

/-- The text of a proxy that has no text of its own. -/
def proxyText (proxy : Proxy) : String :=
  host.fullName proxy.type ++ ": " ++ proxy.key.text

/-- The text of a value; an instance gives its own if its type has a method for it. -/
def textBy (value : ScriptValue) : Bridge ScriptError String := do
  match value with
  | .proxy proxy =>
      match ← host.indexBy invoke value (.string "ToString") with
      | .function handle =>
          match ← firstResult invoke handle [value] with
          | .string text => return text
          | _ => return host.proxyText proxy
      | _ => return host.proxyText proxy
  | other => return other.keyText

/-- Lets go of a proxy of this context; whether it was live. -/
def release {ε : Type} (value : ScriptValue) : Bridge ε Bool := do
  let cache := (← Bridge.context).cache
  match value with
  | .proxy proxy =>
      if cache.owns proxy then
        match cache.release? proxy.key with
        | some (_, released) =>
            Bridge.modifyContext fun context => { context with cache := released }
            return true
        | none => return false
      else return false
  | _ => return false

end Host

end ScriptBridge
