import ScriptBridge.Context.Overloads

/-!
# Generated callables

What the callables of bound types do: reading and writing fields, indexers,
subscribing to events, constructing, wrapping functions as delegates, and
casting to enumerations.
-/

namespace ScriptBridge.Host

variable (host : Host)

/-- The argument at a position; past the end it is nil. -/
def argumentAt (arguments : List ScriptValue) (position : Nat) : ScriptValue :=
  arguments.getD position .nil

/-- The instance of a type behind a target and its proxy key, or what was found instead. -/
def expectInstance (target : ScriptValue) (type : TypeRef) (activity : String) :
    Bridge ScriptError (HostValue × ProxyKey) := do
  let mismatch (found : String) : ScriptError :=
    .typeMismatch ("Expected type " ++ host.fullName type ++ ", but got " ++ found ++
      ", while " ++ activity)
  match target with
  | .proxy proxy =>
      match (← Bridge.context).cache.resolve? proxy with
      | none => throw (.staleProxy (host.fullName proxy.type))
      | some value =>
          if ← host.fits target type then return (value, proxy.key)
          else throw (mismatch (host.fullName proxy.type))
  | .nil => throw (mismatch "null")
  | other => throw (mismatch other.kindName)

/-- Runs an accessor on a receiver and writes a copied receiver back. -/
def runAccessor (owner : TypeRef) (method : MethodDef) (receiver : Option (HostValue × ProxyKey))
    (arguments : List HostValue) : Bridge HostException HostValue := do
  let completion ← host.runNative method ⟨owner, receiver.map Prod.fst, arguments, []⟩
  writeBack (receiver.map Prod.snd) completion.receiver
  return completion.result

/-- The instance that a member works on and its proxy key, from the first argument; a static member has none. -/
def memberReceiver (isStatic : Bool) (type : TypeRef) (activity : String) (arguments : List ScriptValue) :
    Bridge ScriptError (Option (HostValue × ProxyKey)) := do
  if isStatic then return none
  else return some (← host.expectInstance (argumentAt arguments 0) type activity)

def getField (field : Field) (arguments : List ScriptValue) : Bridge ScriptError (List ScriptValue) := do
  let name := field.definition.name
  let target ← host.memberReceiver field.definition.isStatic field.owner ("get field " ++ name) arguments
  match (← Bridge.store).readField? field (target.map Prod.fst) with
  | some value => return [← Bridge.asScript (host.push value)]
  | none => throw (.memberNotFound (host.fullName field.owner) name)

/-- The failure of a value that a member of a type does not take. -/
def unexpectedValue (owner : TypeRef) (member : String) (type : TypeRef) : ScriptError :=
  .typeMismatch ((host.definition owner).name ++ "." ++ member ++ " Expected type " ++ host.fullName type)

/-- Writes a field; a copied instance is written back to its proxy. -/
def setField (field : Field) (arguments : List ScriptValue) : Bridge ScriptError (List ScriptValue) := do
  let name := field.definition.name
  let target ← host.memberReceiver field.definition.isStatic field.owner ("set field " ++ name) arguments
  let value := argumentAt arguments (if field.definition.isStatic then 0 else 1)
  if !(← host.fits value field.definition.type) then
    throw (host.unexpectedValue field.owner name field.definition.type)
  let converted ← host.toHost value field.definition.type
  match (← Bridge.store).writeField? field (target.map Prod.fst) converted with
  | some (written, store) =>
      Bridge.setStore store
      writeBack (target.map Prod.snd) written
      return []
  | none => return []

def keyType? (property : PropertyDef) : Option TypeRef :=
  match property.indexParameters.head? with
  | some ⟨_, .host type, _, _⟩ => some type
  | _ => none

/-- The exception of an indexer as scripts see it. -/
def accessorFailure (verb : String) (owner : TypeRef) (property : String) (exception : HostException) :
    ScriptError :=
  .invocation ("try to " ++ verb ++ " " ++ host.fullName owner ++ "." ++ property ++
    " throw a exception:" ++ exception.message) exception.stackTrace

/-- Reads through the first indexer that has a getter and takes the key. -/
def getItemFrom (owner : TypeRef) (receiver : HostValue × ProxyKey) (key : ScriptValue) :
    List PropertyDef → Bridge ScriptError (List ScriptValue)
  | [] => return [.boolean false]
  | property :: rest => do
      match keyType? property, property.getter with
      | some type, some getter =>
          if ← host.fits key type then
            let index ← host.toHost key type
            let value ← ExceptT.adapt (host.accessorFailure "get" owner property.name)
              (host.runAccessor owner getter (some receiver) [index])
            return [.boolean true, ← Bridge.asScript (host.push value)]
          else getItemFrom owner receiver key rest
      | _, _ => getItemFrom owner receiver key rest

/-- Reads an item: true and the value, or false if no indexer takes the key. -/
def getItem (owner : TypeRef) (properties : List PropertyDef) (arguments : List ScriptValue) :
    Bridge ScriptError (List ScriptValue) := do
  match properties with
  | [] => return [.boolean false]
  | first :: _ =>
      let receiver ← host.expectInstance (argumentAt arguments 0) owner ("get prop " ++ first.name)
      host.getItemFrom owner receiver (argumentAt arguments 1) properties

/-- Writes through the first indexer that has a setter and takes the key. -/
def setItemIn (owner : TypeRef) (receiver : HostValue × ProxyKey) (key value : ScriptValue) :
    List PropertyDef → Bridge ScriptError (List ScriptValue)
  | [] => return [.boolean false]
  | property :: rest => do
      match keyType? property, property.setter with
      | some type, some setter =>
          if ← host.fits key type then
            if value.isNil || !(← host.fits value property.type) then
              throw (host.unexpectedValue owner property.name property.type)
            let index ← host.toHost key type
            let item ← host.toHost value property.type
            discard <| ExceptT.adapt (host.accessorFailure "set" owner property.name)
              (host.runAccessor owner setter (some receiver) [index, item])
            return [.boolean true]
          else setItemIn owner receiver key value rest
      | _, _ => setItemIn owner receiver key value rest

/-- Writes an item: true, or false if no indexer takes the key. -/
def setItem (owner : TypeRef) (properties : List PropertyDef) (arguments : List ScriptValue) :
    Bridge ScriptError (List ScriptValue) := do
  match properties with
  | [] => return [.boolean false]
  | first :: _ =>
      let receiver ← host.expectInstance (argumentAt arguments 0) owner ("set prop " ++ first.name)
      host.setItemIn owner receiver (argumentAt arguments 1) (argumentAt arguments 2) properties

def handlerAccessor? (event : EventDef) (sign : ScriptValue) : Option MethodDef :=
  match sign with
  | .string "+" => some event.add
  | .string "-" => some event.remove
  | _ => none

/-- Subscribes a function to an event or takes it off again. -/
def changeEvent (owner : TypeRef) (event : EventDef) (arguments : List ScriptValue) :
    Bridge ScriptError (List ScriptValue) := do
  let invalid : ScriptError :=
    .runtime ("invalid arguments to " ++ host.fullName owner ++ "." ++ event.name)
  let receiver ← host.memberReceiver event.isStatic owner ("access event " ++ event.name) arguments
  let first := if event.isStatic then 0 else 1
  match handlerAccessor? event (argumentAt arguments first) with
  | none => throw invalid
  | some accessor =>
      match argumentAt arguments (first + 1) with
      | .function handle =>
          let delegate ← host.toHost (.function handle) event.handlerType
          discard <| ExceptT.adapt ScriptError.ofException
            (host.runAccessor owner accessor receiver [delegate])
          return []
      | _ => throw invalid

/-- Whether a group has a constructor that takes no arguments. -/
def hasParameterless (group : OverloadGroup) : Bool :=
  group.candidates.any fun candidate => candidate.method.definition.inputArity = 0

/-- Constructs an instance; a copied type can always be made without arguments. -/
def constructGroup (group : OverloadGroup) (arguments : List ScriptValue) :
    Bridge ScriptError (List ScriptValue) := do
  if arguments.isEmpty && (host.definition group.owner).isValueType && !hasParameterless group then
    return [← Bridge.asScript (host.push (host.system.defaultValue group.owner))]
  else if group.isEmpty then
    throw (.runtime ("No constructor for " ++ host.fullName group.owner))
  else host.callGroup group arguments

/-- The value of an enumeration that a script value names: by number, member name or existing value. -/
def enumNumber? (context : Context) (type : TypeRef) (value : ScriptValue) : Option Int64 :=
  match value with
  | .string name => (host.definition type).enumValue? name
  | .proxy proxy =>
      match context.cache.resolve? proxy with
      | some (.enumeration other number) => if other = type then some number else none
      | _ => none
  | other => other.asInteger?

def castToEnum (type : TypeRef) (arguments : List ScriptValue) : Bridge ScriptError (List ScriptValue) := do
  match host.enumNumber? (← Bridge.context) type (argumentAt arguments 0) with
  | some number => return [← Bridge.asScript (host.push (.enumeration type number))]
  | none => throw (.runtime ("invalid value for enum " ++ host.fullName type))

/-- Wraps a function as a delegate of a type. -/
def wrapDelegate (type : TypeRef) (arguments : List ScriptValue) :
    Bridge ScriptError (List ScriptValue) := do
  match argumentAt arguments 0 with
  | .function handle =>
      return [← Bridge.asScript (host.push (.delegate ⟨type, [handle.target]⟩))]
  | _ => throw (.runtime ("delegate ctor of " ++ host.fullName type ++ " expects a function"))

/--
The callable of a placeholder's member, made for good at the first use. It takes
the slot of the placeholder before it is called.
-/
def resolveMember (member : PendingMember) : Bridge ScriptError CallableHandle := do
  match (← Bridge.context).binding? member.type with
  | none => throw (.ofBindError (.missingBinding (host.fullName member.type)))
  | some binding =>
      match binding.slot? member.table member.name with
      | some (.bound handle) => return handle
      | _ =>
          let catalog := Catalog.ofType host.system member.type member.access (← host.extensionMap)
          match catalog.find? member.kind member.name member.isStatic with
          | none => throw (.memberNotFound (host.fullName member.type) member.name)
          | some found =>
              let handle ← Bridge.asScript
                (Bridge.register (.ofMember host.system member.type found))
              Bridge.modifyContext fun context => context.modifyBinding member.type fun binding =>
                { binding with slots := binding.slots.insert (member.table, member.name) (.bound handle) }
              Bridge.count .countLazyMember
              return handle

end ScriptBridge.Host
