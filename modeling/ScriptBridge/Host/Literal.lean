import ScriptBridge.Host.Store

/-!
# Host literals

Descriptions of host values. Making the value of a description puts the shared
instances that it mentions into the store, new ones each time.
-/

namespace ScriptBridge

/-- A description of a host value. -/
inductive HostLiteral where
  /-- A value that exists already. -/
  | existing (value : HostValue)
  /-- A new shared instance of a type. -/
  | newObject (type : TypeRef)
  /-- A new copy of a type's initial instance. -/
  | newCopy (type : TypeRef)
  /-- The value of an unwritten slot of a type. -/
  | defaultOf (type : TypeRef)
  /-- A new array with elements of the given element type. -/
  | array (element : TypeRef) (items : List HostLiteral)

namespace HostLiteral

mutual

def make (system : TypeSystem) : HostLiteral → StateM HostStore HostValue
  | .existing value => pure value
  | .newObject type => modifyGet fun store =>
      let (reference, store) := store.allocate (system.newInstance type)
      (.object reference, store)
  | .newCopy type => pure (.copied (system.newInstance type))
  | .defaultOf type => pure (system.defaultValue type)
  | .array element items => do
      let elements ← makeAll system items
      modifyGet fun store => store.newArray (.array element) elements

/-- Makes the values of descriptions in order. -/
def makeAll (system : TypeSystem) : List HostLiteral → StateM HostStore (List HostValue)
  | [] => pure []
  | literal :: rest => do
      let value ← make system literal
      let values ← makeAll system rest
      return value :: values

end

/-- The delegate with the given targets; without targets it is null. -/
def delegateOf (type : TypeRef) (targets : List UInt64) : HostValue :=
  if targets.isEmpty then .null else .delegate ⟨type, targets⟩

end HostLiteral

end ScriptBridge
