import ScriptBridge.Host.TypeSystem
import ScriptBridge.Host.Error

/-!
# Signatures

Generic methods are offered to scripts with every generic parameter replaced by
its first constraint. This module decides which methods can be offered at all
and what their parameter types become.
-/

namespace ScriptBridge

/-- The types that replace the generic parameters of a method, by position. -/
structure Specialization where
  arguments : List TypeRef
deriving DecidableEq

/-- The specialization of a method without generic parameters. -/
def Specialization.none : Specialization := ⟨[]⟩

/-- The host type that a signature type stands for. -/
def Specialization.resolve (specialization : Specialization) :
    SignatureType → Except TypeResolutionError TypeRef
  | .host type => .ok type
  | .generic index =>
      match specialization.arguments[index]? with
      | some type => .ok type
      | Option.none => .error (.unboundGeneric index)

namespace MethodDef

/-- The types chosen for generic parameters from a position on: the first constraint of each. -/
def firstConstraints (method : String) :
    Nat → List GenericParameter → Except TypeResolutionError (List TypeRef)
  | _, [] => .ok []
  | index, generic :: rest =>
      match generic.constraints with
      | [] => .error (.noConstraint method index)
      | constraint :: _ => do
          let others ← firstConstraints method (index + 1) rest
          return constraint :: others

/-- The specialization of a method, unless a generic parameter has no constraint. -/
def specialize (method : MethodDef) : Except TypeResolutionError Specialization := do
  return ⟨← firstConstraints method.name 0 method.generics⟩

end MethodDef

namespace TypeSystem

variable (system : TypeSystem)

/-- Whether a generic parameter is constrained, and to classes only. -/
def hasOnlyClassConstraints (generic : GenericParameter) : Bool :=
  !generic.constraints.isEmpty &&
    generic.constraints.all fun constraint =>
      (system.definition constraint).isClass && system.fullName constraint != "System.ValueType"

/-- The generic parameters that the parameters of a method mention, by position. -/
def mentionedGenerics (method : MethodDef) : List Nat :=
  method.parameters.filterMap fun parameter =>
    match parameter.type with
    | .generic index => some index
    | .host _ => none

/--
Whether a method can be offered at all. A generic method needs a parameter of
generic type, class constraints on every generic parameter so used, and a
result that is no generic parameter unless some parameter has that type too.
-/
def isSupported (method : MethodDef) : Bool :=
  !method.isGeneric ||
    (let mentioned := mentionedGenerics method
     !mentioned.isEmpty &&
      (mentioned.all fun index =>
        match method.generics[index]? with
        | some generic => system.hasOnlyClassConstraints generic
        | none => false) &&
      match method.returns with
      | some (.generic index) => mentioned.contains index
      | _ => true)

def signatureText : SignatureType → String
  | .host type => system.fullName type
  | .generic index => "!!" ++ natText index

/-- The text of a method: its name and the types of its parameters. -/
def methodDefText (method : MethodDef) : String :=
  (if method.isStatic then "static " else "") ++ method.name ++ "(" ++
    ", ".intercalate (method.parameters.map fun parameter => system.signatureText parameter.type) ++ ")"

/-- The text of a method with its declaring type. -/
def methodText (method : Method) : String :=
  system.fullName method.owner ++ "::" ++ system.methodDefText method.definition

/-- The text of a field with its declaring type and its own type. -/
def fieldText (field : Field) : String :=
  (if field.definition.isStatic then "static " else "") ++ system.fullName field.owner ++ "::" ++
    field.definition.name ++ ": " ++ system.fullName field.definition.type

end TypeSystem

end ScriptBridge
