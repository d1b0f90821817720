import ScriptBridge.Binding.Catalog
import ScriptBridge.Config
import ScriptBridge.Script.Value

/-!
# Dispatch tables

The member tables of one bound type: for each name the callable that serves it,
and the callables for operators, indexers and construction.
-/

namespace ScriptBridge

/-- The entry of a member: its callable, or the placeholder that makes it at first use. -/
inductive MemberSlot where
  | bound (handle : CallableHandle)
  | unbound (handle : CallableHandle)
deriving DecidableEq

namespace MemberSlot

def handle : MemberSlot → CallableHandle
  | .bound handle | .unbound handle => handle

/-- Whether the callable of the member has been made. -/
def isBound : MemberSlot → Bool
  | .bound _ => true
  | .unbound _ => false

end MemberSlot

/-- The table that a member lives in. -/
inductive MemberTable where
  | methods
  | getters
  | setters
  | classMethods
  | classGetters
  | classSetters
deriving DecidableEq

namespace MemberTable

def word : MemberTable → String
  | .methods => "methods"
  | .getters => "getters"
  | .setters => "setters"
  | .classMethods => "class_methods"
  | .classGetters => "class_getters"
  | .classSetters => "class_setters"

def all : List MemberTable := [.methods, .getters, .setters, .classMethods, .classGetters, .classSetters]

def name : MemberTable → String
  | .methods => "Methods"
  | .getters => "Getters"
  | .setters => "Setters"
  | .classMethods => "ClassMethods"
  | .classGetters => "ClassGetters"
  | .classSetters => "ClassSetters"

/-- The table for members of a kind and staticness. -/
def ofMember : MemberKind → Bool → MemberTable
  | .method, false | .event, false => .methods
  | .method, true | .event, true => .classMethods
  | .fieldGet, false | .propertyGet, false => .getters
  | .fieldGet, true | .propertyGet, true => .classGetters
  | .fieldSet, false | .propertySet, false => .setters
  | .fieldSet, true | .propertySet, true => .classSetters

end MemberTable

/-- The dispatch tables of one type in one context. -/
structure TypeBinding where
  type : TypeRef
  mode : BindingMode
  slots : FinMap (MemberTable × String) MemberSlot
  operators : FinMap Operator CallableHandle
  itemGetter : Option CallableHandle
  itemSetter : Option CallableHandle
  constructor : Option CallableHandle
  classTable : TableId
  base : Option TypeRef
  /-- The base chain from the direct base to the root. -/
  ancestors : List TypeRef
  /-- The hidden members are in the tables too. -/
  showsHidden : Bool

namespace TypeBinding

/-- The binding of a type before any member is in its tables. -/
def bare (system : TypeSystem) (type : TypeRef) (mode : BindingMode) (classTable : TableId) :
    TypeBinding where
  type := type
  mode := mode
  slots := .empty
  operators := .empty
  itemGetter := none
  itemSetter := none
  constructor := none
  classTable := classTable
  base := system.base? type
  ancestors := system.ancestors type
  showsHidden := false

def slot? (binding : TypeBinding) (table : MemberTable) (name : String) : Option MemberSlot :=
  binding.slots.get? (table, name)

/-- The slots of one table in order of their names. -/
def table (binding : TypeBinding) (table : MemberTable) : List (String × MemberSlot) :=
  (binding.slots.entries.filterMap fun entry =>
    if entry.1.1 = table then some (entry.1.2, entry.2) else none).mergeSort
      fun left right => decide (left.1 ≤ right.1)

/-- The operators in order of the names that scripts have for them. -/
def sortedOperators (binding : TypeBinding) : List (Operator × CallableHandle) :=
  binding.operators.entries.mergeSort fun left right => decide (left.1.scriptName ≤ right.1.scriptName)

/-- The number of members whose callable has not been made. -/
def unboundCount (binding : TypeBinding) : Nat :=
  (binding.slots.values.filter fun slot => !slot.isBound).length

end TypeBinding

end ScriptBridge
