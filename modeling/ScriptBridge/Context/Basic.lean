import ScriptBridge.Binding.Callable
import ScriptBridge.Binding.NamespaceTree
import ScriptBridge.Host.Native
import ScriptBridge.Identity.Cache

/-!
# Contexts

A context is everything that one script knows of the host: its tables, its
proxies, the dispatch tables of the bound types and the callables it was handed.
Operations on a context also read and write the host store. A failure of an
operation keeps what the operation already did.
-/

namespace ScriptBridge

/-- What does not change while scripts run: the types, their names, and their native code. -/
structure Host where
  system : TypeSystem
  registry : Registry
  natives : List NativeBody
  /-- How deep calls of embedder functions may nest. -/
  callDepth : Nat

/-- The state of one script. -/
structure Context where
  config : Config
  heap : TableHeap
  namespaces : NamespaceTree
  cache : IdentityCache
  bindings : FinMap TypeRef TypeBinding
  callables : Array Callable
  /-- The extension methods, once they have been collected. -/
  extensions : Option ExtensionMap
  counters : BindingCounters

/--
A call of an embedder function that was reported: its name, its arguments, and
the context at that moment, which tells what the handles among them stood for.
-/
structure Report where
  name : String
  arguments : List ScriptValue
  context : Context

/-- What an operation can change. -/
structure World where
  store : HostStore
  context : Context
  /-- The reports of embedder functions, the first one first. -/
  reports : List Report

/-- An operation that can fail with an error of the given kind. -/
abbrev Bridge (ε : Type) := ExceptT ε (StateM World)

namespace Context

/-- A context that has bound nothing; its only table is the root of its namespaces. -/
def fresh (config : Config) (tag : CacheTag) : Context :=
  let (namespaces, heap) := NamespaceTree.create .empty
  { config := config
    heap := heap
    namespaces := namespaces
    cache := .empty tag
    bindings := .empty
    callables := #[]
    extensions := none
    counters := .zero }

def root (context : Context) : ScriptValue := .table context.namespaces.root

def binding? (context : Context) (type : TypeRef) : Option TypeBinding := context.bindings.get? type

def isBound (context : Context) (type : TypeRef) : Bool := (context.binding? type).isSome

def callable? (context : Context) (handle : CallableHandle) : Option Callable :=
  context.callables[handle.index.toNat]?

def statistics (context : Context) : Statistics := ⟨context.counters, context.cache.counters⟩

def modifyBinding (context : Context) (type : TypeRef) (change : TypeBinding → TypeBinding) : Context :=
  match context.binding? type with
  | some binding => { context with bindings := context.bindings.insert type (change binding) }
  | none => context

/-- A type followed by its base chain, as recorded when the type was bound. -/
def lookupChain (context : Context) (system : TypeSystem) (type : TypeRef) : List TypeRef :=
  type :: ((context.binding? type).map (·.ancestors)).getD (system.ancestors type)

end Context

namespace Bridge

variable {ε : Type}

def context : Bridge ε Context := do return (← get).context

def store : Bridge ε HostStore := do return (← get).store

def modifyContext (change : Context → Context) : Bridge ε Unit :=
  modify fun world => { world with context := change world.context }

def setStore (store : HostStore) : Bridge ε Unit := modify fun world => { world with store := store }

def writeEntry (id : TableId) (name : String) (value : ScriptValue) : Bridge ε Unit :=
  modifyContext fun context => { context with heap := context.heap.set id (.string name) value }

def createTable (kind : TableKind) : Bridge ε TableId := do
  let (id, heap) := (← context).heap.create kind
  modifyContext fun context => { context with heap := heap }
  return id

def report (name : String) (arguments : List ScriptValue) : Bridge ε Unit :=
  modify fun world =>
    { world with reports := world.reports ++ [⟨name, arguments, world.context⟩] }

def count (change : BindingCounters → BindingCounters) : Bridge ε Unit :=
  modifyContext fun context => { context with counters := change context.counters }

def represent (value : HostValue) (type : TypeRef) : Bridge ε Proxy := do
  let (proxy, cache) := (← context).cache.represent value type
  modifyContext fun context => { context with cache := cache }
  return proxy

def updateProxy (key : ProxyKey) (value : HostValue) : Bridge ε Unit :=
  modifyContext fun context => { context with cache := context.cache.update key value }

/-- A binding operation inside a script operation. -/
def asScript {α : Type} (action : Bridge BindError α) : Bridge ScriptError α :=
  ExceptT.adapt ScriptError.ofBindError action

def ofExcept {α : Type} (result : Except ε α) : Bridge ε α :=
  match result with
  | .ok value => pure value
  | .error error => throw error

def register (callable : Callable) : Bridge BindError CallableHandle := do
  let count := (← context).callables.size
  if UInt32.size ≤ count then throw .callableLimit
  modifyContext fun context => { context with callables := context.callables.push callable }
  return ⟨count.toUInt32⟩

end Bridge

namespace Host

def fullName (host : Host) (type : TypeRef) : String := host.system.fullName type

def definition (host : Host) (type : TypeRef) : TypeDef := host.system.definition type

end Host

end ScriptBridge
