import ScriptBridge.Host.Signature
import ScriptBridge.Text.Dotted

/-!
# The registry

The types that scripts can reach by name. Registering a type registers the
types nested in it too.
-/

namespace ScriptBridge

/-- The reachable types by full name. -/
structure Registry where
  byName : FinMap String TypeRef

namespace Registry

variable (system : TypeSystem)

def core : Registry :=
  ⟨.ofList ((List.range TypeRef.coreCount).map fun index =>
    (TypeSystem.core.fullName (.declared index), .declared index))⟩

def get? (registry : Registry) (name : String) : Option TypeRef := registry.byName.get? name

/-- The type of a full name, or the failure to find it. -/
def find (registry : Registry) (name : String) : Except TypeResolutionError TypeRef :=
  match registry.get? name with
  | some type => .ok type
  | none => .error (.typeNotFound name)

def types (registry : Registry) : List TypeRef := registry.byName.values

/-- Whether a reachable type lives in a namespace or below it. -/
def hasNamespace (registry : Registry) (name : String) : Bool :=
  registry.types.any fun type =>
    let space := (system.definition type).space
    space == name || Text.opens (name ++ ".") space

/-- The reachable types that declare extension methods. -/
def extensionContainers (registry : Registry) : List TypeRef :=
  registry.types.filter fun type => (system.definition type).isExtensionContainer

/-- Registers types down to a given depth of nesting. -/
def registerWithin : Nat → TypeRef → ExceptT TypeResolutionError (StateM Registry) Unit
  | 0, _ => pure ()
  | depth + 1, type => do
      let name := system.fullName type
      match (← get).get? name with
      | some existing => if existing ≠ type then throw (.duplicateType name)
      | none =>
          modify fun registry => ⟨registry.byName.insert name type⟩
          (system.definition type).nested.forM (registerWithin depth)

/--
Registers a type and then, in order, the types nested in it. A type that is
registered already is left alone; another type of the same name is a failure,
which keeps what was registered before it.
-/
def register (type : TypeRef) : ExceptT TypeResolutionError (StateM Registry) Unit :=
  registerWithin system (type.rank + 1) type

end Registry

end ScriptBridge
