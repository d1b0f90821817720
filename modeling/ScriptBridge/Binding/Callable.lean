import ScriptBridge.Binding.Overload
import ScriptBridge.Binding.Procedure
import ScriptBridge.Binding.Tables

/-!
# Callables

Everything that scripts can call: the members, constructors and casts of bound
types, the placeholders of members that are made at first use, and functions
that the embedder supplies.
-/

namespace ScriptBridge

/-- What a placeholder knows about the member it stands for. -/
structure PendingMember where
  type : TypeRef
  kind : MemberKind
  name : String
  isStatic : Bool
  access : MemberAccess
deriving DecidableEq

def PendingMember.table (member : PendingMember) : MemberTable := .ofMember member.kind member.isStatic

/-- A function of scripts that runs on the host side. -/
inductive Callable where
  /-- A method group, a property accessor or an operator. -/
  | method (group : OverloadGroup)
  | fieldGetter (field : Field)
  | fieldSetter (field : Field)
  | itemGetter (owner : TypeRef) (properties : List PropertyDef)
  | itemSetter (owner : TypeRef) (properties : List PropertyDef)
  | event (owner : TypeRef) (event : EventDef)
  | constructor (group : OverloadGroup)
  | delegateConstructor (type : TypeRef)
  | enumCast (type : TypeRef)
  | placeholder (member : PendingMember)
  | embedder (name : String) (body : List ScriptValue → Procedure)

namespace Callable

def name (system : TypeSystem) : Callable → String
  | .method group => system.fullName group.owner ++ "." ++ group.name
  | .fieldGetter field | .fieldSetter field =>
      system.fullName field.owner ++ "." ++ field.definition.name
  | .itemGetter owner _ => system.fullName owner ++ ".get_Item"
  | .itemSetter owner _ => system.fullName owner ++ ".set_Item"
  | .event owner declared => system.fullName owner ++ "." ++ declared.name
  | .constructor group => system.fullName group.owner ++ ".ctor"
  | .delegateConstructor type => system.fullName type ++ ".ctor"
  | .enumCast type => system.fullName type ++ ".__CastFrom"
  | .placeholder member => system.fullName member.type ++ "." ++ member.name ++ " (unbound)"
  | .embedder name _ => name

/-- The function of the embedder that does one action and reports its calls. -/
def ofAction (name : String) (action : EmbedderAction) : Callable := .embedder name (action.procedure name)

/-- Whether the callable stands for a member that is made at first use. -/
def isPlaceholder : Callable → Bool
  | .placeholder _ => true
  | _ => false

/-- The callable of a catalog member of a type. -/
def ofMember (system : TypeSystem) (type : TypeRef) (member : CatalogMember) : Callable :=
  let shape : CallShape := if member.isStatic then .onType else .onInstance
  match member.source with
  | .field field => if member.kind = .fieldSet then .fieldSetter field else .fieldGetter field
  | .accessor accessor => .method (.ofMethods system accessor.owner member.name shape [accessor])
  | .event declared => .event type declared
  | .methods methods => .method (.ofMethods system type member.name shape methods)

def ofOperator (system : TypeSystem) (type : TypeRef) (operator : Operator) (methods : List Method) :
    Callable :=
  .method (.ofMethods system type operator.scriptName .onType methods)

end Callable

end ScriptBridge
