import ScriptBridge.Context.Conversion

/-!
# Binding types

Binding a type makes its table and its dispatch tables. It binds the base first
and the visible nested types last; on the way it hands constants to scripts,
which can bind further types. Binding and handing out values therefore call
each other. The recursion is bounded: each step either binds one more type or
goes to a type of lower rank.
-/

namespace ScriptBridge

/-- A way to bind a type with an access and a mode; it gives the table of the type. -/
abbrev Binder := TypeRef → MemberAccess → BindingMode → Bridge BindError TableId

/-- The script value of a host value that needs no proxy. -/
def HostValue.toScript? : HostValue → Option ScriptValue
  | .null => some .nil
  | .boolean value => some (.boolean value)
  | .char value => some (.integer (Int64.ofNat value.toNat))
  | .int32 value => some (.integer value.toInt64)
  | .int64 value => some (.integer value)
  | .single value => some (.number value.widen)
  | .double value => some (.number value)
  | .string value => some (.string value)
  | .delegate ⟨_, [target]⟩ => (CallableHandle.ofTarget? target).map .function
  | _ => none

namespace Host

variable (host : Host)

/-- The extension methods of every reachable container, collected at the first use. -/
def extensionMap {ε : Type} : Bridge ε (Option ExtensionMap) := do
  let context ← Bridge.context
  if !context.config.mergesExtensions then return none
  match context.extensions with
  | some extensions => return some extensions
  | none =>
      let extensions := ExtensionMap.collect host.system host.registry
      Bridge.modifyContext fun context => { context with extensions := some extensions }
      return some extensions

/-- Binds a type in the configured way unless it is bound. -/
def ensureBoundBy (bind : Binder) (type : TypeRef) : Bridge BindError Unit := do
  let context ← Bridge.context
  if !context.isBound type then
    discard (bind type context.config.access context.config.mode)

/-- The script value of a host value; a proxy's run-time type is bound first. -/
def pushBy (bind : Binder) (value : HostValue) : Bridge BindError ScriptValue := do
  match value.toScript? with
  | some simple => return simple
  | none =>
      match (← Bridge.store).typeOf? value with
      | none => throw .missingInstance
      | some type =>
          ensureBoundBy bind type
          return .proxy (← Bridge.represent value type)

def initialCallable (type : TypeRef) (access : MemberAccess) (mode : BindingMode)
    (member : CatalogMember) : Callable :=
  match mode with
  | .eager => .ofMember host.system type member
  | .lazy => .placeholder ⟨type, member.kind, member.name, member.isStatic, access⟩

/-- Registers the first callable of a member and gives the slot for it. -/
def installMember (type : TypeRef) (access : MemberAccess) (mode : BindingMode)
    (member : CatalogMember) : Bridge BindError ((MemberTable × String) × MemberSlot) := do
  let place := (MemberTable.ofMember member.kind member.isStatic, member.name)
  match mode with
  | .eager =>
      Bridge.count .countMember
      return (place, .bound (← Bridge.register (host.initialCallable type access mode member)))
  | .lazy => return (place, .unbound (← Bridge.register (host.initialCallable type access mode member)))

def constantValue (store : HostStore) (field : Field) : HostValue :=
  (store.readField? field none).getD field.definition.initial

/-- Puts the constants of a type into its table. -/
def installConstants (bind : Binder) (table : TableId) (constants : List (String × HostValue)) :
    Bridge BindError Unit :=
  constants.forM fun constant => do
    let value ← pushBy bind constant.2
    Bridge.writeEntry table constant.1 value

/-- Registers the accessors of indexers, if there are any. -/
def installItems (type : TypeRef) (indexers : List PropertyDef) :
    Bridge BindError (Option (CallableHandle × CallableHandle)) := do
  if indexers.isEmpty then return none
  let getter ← Bridge.register (.itemGetter type indexers)
  let setter ← Bridge.register (.itemSetter type indexers)
  return some (getter, setter)

/-- Fills the tables of a bound type with the members that a walk takes. -/
def installMembers (bind : Binder) (type : TypeRef) (access : MemberAccess) (mode : BindingMode) :
    Bridge BindError Unit := do
  match (← Bridge.context).namespaces.table? type with
  | none => throw (.missingTable (host.fullName type))
  | some table =>
      let catalog := Catalog.ofType host.system type access (← host.extensionMap)
      let store ← Bridge.store
      installConstants bind table
        (catalog.constants.map fun constant => (constant.1, constantValue store constant.2))
      let slots ← catalog.members.mapM (host.installMember type access mode)
      let operators ← catalog.operators.entries.mapM fun entry => do
        return (entry.1, ← Bridge.register (.ofOperator host.system type entry.1 entry.2))
      let items ← installItems type catalog.indexers
      if !(← Bridge.context).isBound type then throw (.missingBinding (host.fullName type))
      Bridge.modifyContext fun context => context.modifyBinding type fun binding =>
        { binding with
          slots := binding.slots.insertAll slots
          operators := binding.operators.insertAll operators
          itemGetter := (items.map Prod.fst).or binding.itemGetter
          itemSetter := (items.map Prod.snd).or binding.itemSetter }

/-- Puts the members of an enumeration and the cast to it into its table; other types get nothing. -/
def installEnumeration (bind : Binder) (type : TypeRef) (table : TableId) : Bridge BindError Unit := do
  if (host.definition type).isEnumeration then
    (host.definition type).enumMembers.forM fun member => do
      let value ← pushBy bind (.enumeration type member.2)
      Bridge.writeEntry table member.1 value
    let cast ← Bridge.register (.enumCast type)
    Bridge.writeEntry table "__CastFrom" (.function cast)

def visibleConstructors (type : TypeRef) : List Method :=
  (host.system.constructors type).filter fun method => method.definition.visibility = .visible

/--
The callable that constructs a type: delegate types wrap a function; classes
need a visible constructor, while copied types always have one; abstract types,
interfaces and enumerations have none.
-/
def constructorCallable? (type : TypeRef) : Option Callable :=
  let definition := host.definition type
  if definition.isDelegate then some (.delegateConstructor type)
  else if definition.isAbstract || definition.isInterface || definition.isEnumeration then none
  else
    let constructors := host.visibleConstructors type
    if constructors.isEmpty && !definition.isValueType then none
    else some (.constructor (.ofMethods host.system type ".ctor" .construction constructors))

/-- Registers the constructor of a bound type, if it has one. -/
def installConstructor (type : TypeRef) : Bridge BindError Unit := do
  match host.constructorCallable? type with
  | none => return
  | some callable =>
      let handle ← Bridge.register callable
      if !(← Bridge.context).isBound type then throw (.missingBinding (host.fullName type))
      Bridge.modifyContext fun context => context.modifyBinding type fun binding =>
        { binding with constructor := some handle }

/-- Whether a nested type is left out: concrete delegate types and generic definitions are. -/
def isPassedOver (type : TypeRef) : Bool :=
  let definition := host.definition type
  (definition.isDelegate && !definition.isAbstract) || definition.isGenericDefinition

/-- The nested types of a visibility that are bound with their outer type. -/
def nestedToBind (type : TypeRef) (visibility : Visibility) : List TypeRef :=
  (host.definition type).nested.filter fun nested =>
    (host.definition nested).visibility = visibility && !host.isPassedOver nested

/-- Makes the table of a type and an empty binding for it. -/
def openBinding (type : TypeRef) (mode : BindingMode) : Bridge BindError TableId := do
  let context ← Bridge.context
  let (table, namespaces, heap) ←
    Bridge.ofExcept (context.namespaces.place host.system context.heap type)
  Bridge.modifyContext fun context =>
    { context with
      heap := heap
      namespaces := namespaces
      bindings := context.bindings.insert type (.bare host.system type mode table) }
  return table

def bindBase (bind : Binder) (type : TypeRef) (access : MemberAccess) (mode : BindingMode) :
    Bridge BindError Unit :=
  match host.system.base? type with
  | some base => discard (bind base access mode)
  | none => return

/-- Binds the visible nested types of a type, if the context is configured so. -/
def bindNested (bind : Binder) (type : TypeRef) (access : MemberAccess) (mode : BindingMode) :
    Bridge BindError Unit := do
  if (← Bridge.context).config.bindsNested then
    (host.nestedToBind type .visible).forM fun nested => discard (bind nested access mode)

/-- Binds a type that is not bound; whatever else has to be bound is left to `bind`. -/
def bindAnew (bind : Binder) (type : TypeRef) (access : MemberAccess) (mode : BindingMode) :
    Bridge BindError TableId := do
  host.bindBase bind type access mode
  let table ← host.openBinding type mode
  host.installMembers bind type access mode
  let marker ← pushBy bind (.type type)
  Bridge.writeEntry table "UnderlyingSystemType" marker
  host.installEnumeration bind type table
  host.installConstructor type
  host.bindNested bind type access mode
  Bridge.count .countType
  return table

/-- Binds a type down to a given depth; a bound type keeps its binding. -/
def bindWithin : Nat → Binder
  | 0 => fun _ _ _ => throw .tooDeep
  | depth + 1 => fun type access mode => do
      match (← Bridge.context).binding? type with
      | some binding => return binding.classTable
      | none => host.bindAnew (bindWithin depth) type access mode

/-- A depth that no binding reaches: the number of types times the highest rank. -/
def bindingDepth : Nat :=
  let count := host.system.types.length
  (count + 1) * (2 * count + 2)

/-- Binds a type with an access and a mode; a bound type keeps its binding. -/
def bindWith : Binder := host.bindWithin host.bindingDepth

def bind (type : TypeRef) : Bridge BindError TableId := do
  let config := (← Bridge.context).config
  host.bindWith type config.access config.mode

/-- Binds a type in the configured way unless it is bound. -/
def ensureBound (type : TypeRef) : Bridge BindError Unit := ensureBoundBy host.bindWith type

def push (value : HostValue) : Bridge BindError ScriptValue := pushBy host.bindWith value

/-- The table of a type, which is bound if it has to be. -/
def loadClass (type : TypeRef) : Bridge BindError ScriptValue := do
  return .table (← host.bind type)

/-- Shows the hidden members of a bound type and of its hidden nested types, down to a given depth. -/
def showHiddenWithin : Nat → TypeRef → Bridge BindError Unit
  | 0, _ => throw .tooDeep
  | depth + 1, type => do
      match (← Bridge.context).binding? type with
      | none => throw (.missingBinding (host.fullName type))
      | some binding =>
          if binding.showsHidden then return
          host.installMembers host.bindWith type .hiddenOnly binding.mode
          Bridge.modifyContext fun context => context.modifyBinding type fun binding =>
            { binding with showsHidden := true }
          (host.nestedToBind type .hidden).forM fun nested => do
            discard (host.bindWith nested (← Bridge.context).config.access binding.mode)
            showHiddenWithin depth nested

/-- Adds the hidden members of a bound type to its tables, then those of its hidden nested types. -/
def showHidden (type : TypeRef) : Bridge BindError Unit := host.showHiddenWithin (type.rank + 1) type

/--
Drops the dispatch tables of a type. Lookups that would walk through them pass
over the type; its table can still be reached by path.
-/
def unbind {ε : Type} (type : TypeRef) : Bridge ε Bool := do
  let context ← Bridge.context
  if context.isBound type then
    Bridge.modifyContext fun context =>
      { context with
        bindings := context.bindings.erase type
        namespaces := context.namespaces.forget type }
    return true
  else return false

end Host

end ScriptBridge
