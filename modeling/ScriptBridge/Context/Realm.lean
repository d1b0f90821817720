import ScriptBridge.Context.Operation
import ScriptBridge.Context.Shared
import ScriptBridge.Host.Code
import ScriptBridge.Host.Declaration

/-!
# Realms

A realm is one host with the contexts that are open on it. The contexts share
the types, their names and the host store; each has its own tables, proxies and
callables.
-/

namespace ScriptBridge

/-- A host and its open contexts. -/
structure Realm where
  system : TypeSystem
  registry : Registry
  natives : List NativeBody
  store : HostStore
  contexts : Array Context
  /-- The mark for the next identity cache. -/
  nextTag : Nat

namespace Realm

/-- The realm of the core types, with no contexts. -/
def core : Realm where
  system := .core
  registry := .core
  natives := []
  store := .empty
  contexts := #[]
  nextTag := 1

/-- How deep calls of embedder functions may nest. -/
def callDepth : Nat := 10000

/-- The part of a realm that does not change while scripts run. -/
def host (realm : Realm) : Host := ⟨realm.system, realm.registry, realm.natives, callDepth⟩

/-- Adds native code and gives the body that names it. -/
def addNative (realm : Realm) (code : NativeBody) : MethodBody × Realm :=
  (.native realm.natives.length, { realm with natives := realm.natives ++ [code] })

/-- Declares a type and gives its statics their initial values. -/
def declare? (realm : Realm) (definition : TypeDef) : Option (TypeRef × Realm) :=
  (realm.system.declare? definition).map fun (type, system) =>
    (type, { realm with system := system, store := realm.store.initializeStatics type definition })

def make (realm : Realm) (literal : HostLiteral) : HostValue × Realm :=
  let (value, store) := (literal.make realm.system).run realm.store
  (value, { realm with store := store })

def showValue (realm : Realm) (value : HostValue) : String := realm.system.showValue realm.store value

def register (realm : Realm) (type : TypeRef) : Except TypeResolutionError Unit × Realm :=
  let (result, registry) := ((Registry.register realm.system type).run).run realm.registry
  (result, { realm with registry := registry })

def freshTag (realm : Realm) : CacheTag × Realm :=
  (⟨realm.nextTag⟩, { realm with nextTag := realm.nextTag + 1 })

def openContext (realm : Realm) (config : Config) : Realm :=
  let (tag, realm) := realm.freshTag
  { realm with contexts := realm.contexts.push (.fresh config tag) }

/-- Runs the code of a method directly, without any context. -/
def runMethod (realm : Realm) (method : Method) (invocation : Invocation) :
    Except HostException Completion × Realm :=
  let (result, store) :=
    ((method.definition.body.run realm.natives realm.system invocation).run).run realm.store
  (result, { realm with store := store })

/-- What an operation on a context gives: its outcome and the reports of embedder functions. -/
structure Outcome (ε α : Type) where
  result : Except ε α
  reports : List Report

/-- Runs an operation on a context of its own that is no part of the realm. -/
def runOn {ε α : Type} (realm : Realm) (context : Context) (action : Bridge ε α) :
    Outcome ε α × Context × Realm :=
  let (result, world) := (action.run).run ⟨realm.store, context, []⟩
  (⟨result, world.reports⟩, world.context, { realm with store := world.store })

/-- Performs an operation on one of the open contexts. -/
def perform? (realm : Realm) (index : Nat) (operation : Operation) :
    Option (Outcome Failure Answer × Realm) :=
  (realm.contexts[index]?).map fun context =>
    let (outcome, context, realm) := realm.runOn context (realm.host.perform operation)
    (outcome, { realm with contexts := realm.contexts.setIfInBounds index context })

/-- Runs an operation on a shared context that nobody is using, and gives it back. -/
def runShared? {ε α : Type} (realm : Realm) (shared : Shared Context) (action : Bridge ε α) :
    Option (Outcome ε α × Shared Context × Realm) :=
  shared.tryAcquire.map fun (context, held) =>
    let (outcome, context, realm) := realm.runOn context action
    (outcome, held.giveBack context, realm)

end Realm

end ScriptBridge
