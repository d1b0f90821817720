import ScriptBridge.FinMap
import ScriptBridge.Number.Floating
import ScriptBridge.Host.TypeRef

/-!
# Host values

The values of the host side. Instances of reference types live in a store and
are named by reference; instances of value types are carried by the value
itself, so that copying the value copies the instance.
-/

namespace ScriptBridge

/-- An instance: its type, its named field slots, and the elements if it is an array. -/
structure Instance (Value : Type) where
  type : TypeRef
  storage : FinMap String Value
  elements : List Value

/-- The name of a reference-type instance in the store. -/
structure ObjectRef where
  index : Nat
deriving DecidableEq, Hashable, Inhabited

/-- A host function value: script callables by number, called in order. -/
structure Delegate where
  type : TypeRef
  targets : List UInt64
deriving DecidableEq

/-- A value of the host side. -/
inductive HostValue where
  | null
  | boolean (value : Bool)
  | char (value : Char)
  | int32 (value : Int32)
  | int64 (value : Int64)
  | single (value : Binary32)
  | double (value : Binary64)
  | string (value : String)
  /-- A shared instance of a reference type. -/
  | object (reference : ObjectRef)
  /-- An own copy of a value-type instance. -/
  | copied (copy : Instance HostValue)
  | enumeration (type : TypeRef) (value : Int64)
  | type (value : TypeRef)
  | delegate (value : Delegate)

/-- The field slots of an instance or of the statics of a type. -/
abbrev Storage := FinMap String HostValue

instance : Inhabited HostValue := ⟨.null⟩

namespace Delegate

def removeLast (target : UInt64) (targets : List UInt64) : List UInt64 :=
  (targets.reverse.erase target).reverse

/-- Appends the targets of a delegate to the current value; a value that is no delegate counts as empty. -/
def combine (current : HostValue) (added : Delegate) : HostValue :=
  match current with
  | .delegate present => .delegate ⟨present.type, present.targets ++ added.targets⟩
  | _ => .delegate added

/-- Removes the last occurrence of each target in turn; without targets the value is null. -/
def remove (current : HostValue) (removed : Delegate) : HostValue :=
  match current with
  | .delegate present =>
      let targets := removed.targets.foldl (fun left target => removeLast target left) present.targets
      if targets.isEmpty then .null else .delegate ⟨present.type, targets⟩
  | _ => .null

end Delegate

namespace HostValue

def isNull : HostValue → Bool
  | .null => true
  | _ => false

/-- The integer of an integer, a character or an enumeration value. -/
def asInt64? : HostValue → Option Int64
  | .int32 value => some value.toInt64
  | .int64 value => some value
  | .char value => some (Int64.ofNat value.toNat)
  | .enumeration _ value => some value
  | _ => none

def asDouble? : HostValue → Option Binary64
  | .single value => some value.widen
  | .double value => some value
  | other => other.asInt64?.map fun value => .ofInt value.toInt

def asString? : HostValue → Option String
  | .string value => some value
  | _ => none

def asObject? : HostValue → Option ObjectRef
  | .object reference => some reference
  | _ => none

def asDelegate? : HostValue → Option Delegate
  | .delegate value => some value
  | _ => none

/-- Whether the value is an own copy of a value-type instance. -/
def isCopied : HostValue → Bool
  | .copied _ => true
  | _ => false

mutual

/--
Equality of host values. Values of different kinds differ; floating-point values
compare numerically, shared instances by identity, copies by type, slots and
elements, delegates by type and targets.
-/
def equal : HostValue → HostValue → Bool
  | .null, .null => true
  | .boolean left, .boolean right => left == right
  | .char left, .char right => left == right
  | .int32 left, .int32 right => left == right
  | .int64 left, .int64 right => left == right
  | .single left, .single right => left.equal right
  | .double left, .double right => left.equal right
  | .string left, .string right => left == right
  | .object left, .object right => left == right
  | .copied left, .copied right => equalInstances left right
  | .enumeration leftType left, .enumeration rightType right => leftType == rightType && left == right
  | .type left, .type right => left == right
  | .delegate left, .delegate right => left == right
  | _, _ => false

/-- Equality of copies: type, field slots in any order, and elements. -/
def equalInstances : Instance HostValue → Instance HostValue → Bool
  | ⟨leftType, ⟨leftEntries⟩, leftElements⟩, ⟨rightType, rightStorage, rightElements⟩ =>
      leftType == rightType && leftEntries.length == rightStorage.size &&
        equalEntries leftEntries rightStorage && equalLists leftElements rightElements

/-- Whether every slot of a list has an equal value in a storage. -/
def equalEntries : List (String × HostValue) → FinMap String HostValue → Bool
  | [], _ => true
  | (name, value) :: rest, storage =>
      (match storage.get? name with
        | some other => equal value other
        | none => false) && equalEntries rest storage

def equalLists : List HostValue → List HostValue → Bool
  | [], [] => true
  | left :: lefts, right :: rights => equal left right && equalLists lefts rights
  | _, _ => false

end

end HostValue

end ScriptBridge
