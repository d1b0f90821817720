import ScriptBridge.Host.Value

/-!
# Declared members

Fields, methods, properties and events as a type declares them. A method names
its native code; the code itself is kept beside the type system.
-/

namespace ScriptBridge

/-- Whether a member or type is meant for everybody. -/
inductive Visibility where
  | visible
  | hidden
deriving DecidableEq

/-- Which members a walk over a type takes. -/
inductive MemberAccess where
  | visibleOnly
  | hiddenOnly
  | all
deriving DecidableEq

def MemberAccess.word : MemberAccess → String
  | .visibleOnly => "public"
  | .hiddenOnly => "non_public"
  | .all => "all"

def MemberAccess.ofWord? (word : String) : Option MemberAccess :=
  [.visibleOnly, .hiddenOnly, .all].find? fun access => access.word == word

/-- Whether a walk takes members of the given visibility. -/
def MemberAccess.admits : MemberAccess → Visibility → Bool
  | .visibleOnly, .visible => true
  | .hiddenOnly, .hidden => true
  | .all, _ => true
  | _, _ => false

/-- The type of a parameter or result: a host type, or a generic parameter of the method by position. -/
inductive SignatureType where
  | host (type : TypeRef)
  | generic (index : Nat)
deriving DecidableEq

/-- How an argument travels: in, out, or both ways. -/
inductive PassingMode where
  | byValue
  | out
  | byReference
deriving DecidableEq

/-- A declared parameter. -/
structure Parameter where
  name : String
  type : SignatureType
  mode : PassingMode
  /-- The parameter collects all remaining arguments into an array. -/
  isVariadic : Bool
deriving DecidableEq

/-- A generic parameter of a method and the types it is constrained to. -/
structure GenericParameter where
  name : String
  constraints : List TypeRef
deriving DecidableEq

/-- The code of a method: a native body by number, or one of the accessor bodies that a declaration makes. -/
inductive MethodBody where
  | native (index : Nat)
  | readSlot (field : String) (isStatic : Bool)
  | writeSlot (field : String) (isStatic : Bool)
  | subscribe (field : String) (isStatic : Bool)
  | unsubscribe (field : String) (isStatic : Bool)
deriving DecidableEq

/-- A declared method, accessor, operator or constructor. -/
structure MethodDef where
  name : String
  isStatic : Bool
  /-- The method is an accessor, an operator or a constructor and not an ordinary method. -/
  isSpecial : Bool
  visibility : Visibility
  isExtension : Bool
  parameters : List Parameter
  /-- The result type; a method without one returns nothing. -/
  returns : Option SignatureType
  generics : List GenericParameter
  body : MethodBody
deriving DecidableEq

/-- A declared field. -/
structure FieldDef where
  name : String
  type : TypeRef
  isStatic : Bool
  isReadonly : Bool
  /-- The field is a compile-time constant. -/
  isLiteral : Bool
  visibility : Visibility
  initial : HostValue

/-- A declared property; with index parameters it is an indexer. -/
structure PropertyDef where
  name : String
  type : TypeRef
  indexParameters : List Parameter
  getter : Option MethodDef
  setter : Option MethodDef
  isStatic : Bool
  visibility : Visibility
deriving DecidableEq

/-- A declared event. -/
structure EventDef where
  name : String
  handlerType : TypeRef
  add : MethodDef
  remove : MethodDef
  isStatic : Bool
  visibility : Visibility
deriving DecidableEq

namespace MethodDef

/-- Whether the method has generic parameters. -/
def isGeneric (method : MethodDef) : Bool := !method.generics.isEmpty

/-- The parameters a caller supplies; out parameters are produced, not consumed. -/
def inputs (method : MethodDef) : List Parameter :=
  method.parameters.filter fun parameter => parameter.mode ≠ .out

/-- The number of parameters a caller supplies. -/
def inputArity (method : MethodDef) : Nat := method.inputs.length

/-- Whether the last parameter collects the remaining arguments. -/
def isVariadic (method : MethodDef) : Bool :=
  match method.parameters.getLast? with
  | some parameter => parameter.isVariadic
  | none => false

end MethodDef

def PropertyDef.isIndexer (property : PropertyDef) : Bool := !property.indexParameters.isEmpty

/-- The place of a method in its declaring type. -/
inductive MethodPlace where
  | method (position : Nat)
  | constructor (position : Nat)
deriving DecidableEq

/-- A method together with the type that declares it. -/
structure Method where
  owner : TypeRef
  place : MethodPlace
  definition : MethodDef
deriving DecidableEq

/-- A field together with the type that declares it. -/
structure Field where
  owner : TypeRef
  definition : FieldDef

end ScriptBridge
