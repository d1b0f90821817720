import ScriptBridge.Host.Registry

/-!
# Extension methods

Static methods that act as members of the type of their first parameter. They
are collected from the reachable types that declare them.
-/

namespace ScriptBridge

/-- The extension methods by the type they extend. -/
structure ExtensionMap where
  byType : FinMap TypeRef (List Method)

namespace ExtensionMap

def empty : ExtensionMap := ⟨.empty⟩

instance : Inhabited ExtensionMap := ⟨empty⟩

variable (system : TypeSystem)

/-- The type of the first parameter; of a generic one the first constraint, if that is a class. -/
def extendedType? (method : MethodDef) : Option TypeRef :=
  match method.parameters.head? with
  | none => none
  | some parameter =>
      match parameter.type with
      | .host type => some type
      | .generic index =>
          (method.generics[index]?.bind fun generic => generic.constraints.head?).filter fun constraint =>
            (system.definition constraint).isClass

/-- Whether a method can be offered as a member of the type it extends. -/
def isOffered (method : MethodDef) : Bool :=
  method.isStatic && method.isExtension && method.visibility = .visible && system.isSupported method

/-- Adds a method at the end of those that extend a type. -/
def add (extensions : ExtensionMap) (type : TypeRef) (method : Method) : ExtensionMap :=
  ⟨extensions.byType.insert type ((extensions.byType.get? type).getD [] ++ [method])⟩

/-- The extension methods of some container types, in order. -/
def ofContainers (containers : List TypeRef) : ExtensionMap :=
  (containers.flatMap system.methods).foldl
    (fun extensions method =>
      if isOffered system method.definition then
        (extendedType? system method.definition).elim extensions fun type => extensions.add type method
      else extensions)
    empty

/-- The extension methods of every reachable container. -/
def collect (registry : Registry) : ExtensionMap :=
  ofContainers system (registry.extensionContainers system)

def methodsOf (extensions : ExtensionMap) (type : TypeRef) : List Method :=
  (extensions.byType.get? type).getD []

def size (extensions : ExtensionMap) : Nat :=
  extensions.byType.values.flatten.length

end ExtensionMap

end ScriptBridge
