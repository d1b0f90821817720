import ScriptBridge.Binding.Extension
import ScriptBridge.Binding.Operator
import ScriptBridge.Host.Assignable

/-!
# The member catalog of a type

The declared members of one type, sorted by how scripts reach them: constants,
readable and writable slots, events, method groups, operators and indexers. The
catalog depends on declarations alone, so a member that is looked up again later
is found again.
-/

namespace ScriptBridge

/-- How scripts use a member. -/
inductive MemberKind where
  | method
  | fieldGet
  | fieldSet
  | propertyGet
  | propertySet
  | event
deriving DecidableEq

namespace MemberKind

def all : List MemberKind := [.method, .fieldGet, .fieldSet, .propertyGet, .propertySet, .event]

def word : MemberKind → String
  | .method => "method"
  | .fieldGet => "field_get"
  | .fieldSet => "field_set"
  | .propertyGet => "property_get"
  | .propertySet => "property_set"
  | .event => "event"

def ofWord? (word : String) : Option MemberKind := all.find? fun kind => kind.word == word

end MemberKind

/-- What a member is made from. -/
inductive MemberSource where
  | field (field : Field)
  /-- A property accessor, which is a group of one method. -/
  | accessor (method : Method)
  | event (event : EventDef)
  | methods (methods : List Method)

/-- A member under the name that scripts have for it. -/
structure CatalogMember where
  name : String
  isStatic : Bool
  kind : MemberKind
  source : MemberSource

/-- Method groups by name and staticness, in the order of their first methods. -/
abbrev MethodGroups := FinMap (String × Bool) (List Method)

/-- The members of one type. -/
structure Catalog where
  /-- Static fields that never change, by script name. -/
  constants : List (String × Field)
  members : List CatalogMember
  operators : FinMap Operator (List Method)
  /-- The indexers whose key cannot be a string. -/
  indexers : List PropertyDef

namespace Catalog

/-- The first member of a kind, staticness and name. -/
def find? (catalog : Catalog) (kind : MemberKind) (name : String) (isStatic : Bool) :
    Option CatalogMember :=
  catalog.members.find? fun member =>
    member.kind = kind && member.isStatic == isStatic && member.name == name

variable (system : TypeSystem)

/-- Whether a field is a slot for patched code, which scripts do not see. -/
def isPatchSlot (field : FieldDef) : Bool :=
  field.isStatic && (Text.opens "__Hotfix" field.name || Text.opens "_c__Hotfix" field.name) &&
    ((system.definition field.type).isDelegate || field.type = .delegate)

def acceptsString : SignatureType → Bool
  | .host type => system.isAssignable .string type
  | .generic _ => false

/-- The fields of a type that a walk takes, with their script names; the slot of an event is marked. -/
def scriptFields (type : TypeRef) (access : MemberAccess) : List (String × Field) :=
  let events := (system.definition type).events
  ((system.fields type).filter fun field =>
      access.admits field.definition.visibility && !isPatchSlot system field.definition).map fun field =>
    let name := field.definition.name
    (if events.any fun event => event.name == name then "&" ++ name else name, field)

def isConstant (field : Field) : Bool :=
  field.definition.isStatic && (field.definition.isReadonly || field.definition.isLiteral)

def fieldMembers (name : String) (field : Field) : List CatalogMember :=
  [ ⟨name, field.definition.isStatic, .fieldGet, .field field⟩,
    ⟨name, field.definition.isStatic, .fieldSet, .field field⟩ ]

/-- The members of the events that a walk takes. -/
def eventMembers (type : TypeRef) (access : MemberAccess) : List CatalogMember :=
  ((system.definition type).events.filter fun event => access.admits event.visibility).map fun event =>
    ⟨event.name, event.isStatic, .event, .event event⟩

/-- Whether the key of an indexer takes strings. -/
def hasStringKey (property : PropertyDef) : Bool :=
  match property.indexParameters.head? with
  | some parameter => acceptsString system parameter.type
  | none => false

/-- The indexers that a walk takes and whose key takes no strings; they come with the visible members. -/
def keyedIndexers (type : TypeRef) (access : MemberAccess) : List PropertyDef :=
  if access.admits .visible then
    (system.definition type).properties.filter fun property =>
      property.isIndexer && access.admits property.visibility && !hasStringKey system property
  else []

/-- What becomes of a method that is the first of its name and staticness. -/
inductive MethodRole where
  /-- Scripts reach it in another way or not at all. -/
  | skipped
  | accessor (kind : MemberKind) (name : String)
  | grouped
deriving DecidableEq

/-- Whether a method is the accessor of an indexer whose key takes no strings. -/
def isKeyedItemAccessor (method : MethodDef) : Bool :=
  ((method.name == "get_Item" && method.parameters.length == 1) ||
      (method.name == "set_Item" && method.parameters.length == 2)) &&
    match method.parameters.head? with
    | some parameter => !acceptsString system parameter.type
    | none => false

/-- The property that a special method reads or writes; the accessors of indexers are methods. -/
def accessedProperty? (method : MethodDef) : Option (MemberKind × String) :=
  match Text.after? "get_" method.name, Text.after? "set_" method.name with
  | some property, _ => if method.parameters.length ≠ 1 then some (.propertyGet, property) else none
  | none, some property => if method.parameters.length ≠ 2 then some (.propertySet, property) else none
  | none, none => none

/-- The role of a method that is the first of its name and staticness. -/
def roleOf (method : MethodDef) : MethodRole :=
  if method.isSpecial then
    if isKeyedItemAccessor system method then .skipped
    else if Text.opens "add_" method.name || Text.opens "remove_" method.name then .skipped
    else if Text.opens "op_" method.name then
      if (Operator.ofMethodName? method.name).isSome then .grouped else .skipped
    else
      match accessedProperty? method with
      | some (kind, name) => .accessor kind name
      | none => if method.name == ".ctor" then .skipped else .grouped
  else if method.name == ".ctor" then .skipped
  else .grouped

def hiddenNames (type : TypeRef) : List String :=
  ((system.methods type).filter fun method => method.definition.visibility = .hidden).map
    (·.definition.name)

/--
The methods that a walk takes. A walk over hidden members takes a name whole:
all methods of a name that some hidden method has.
-/
def walkedMethods (type : TypeRef) (access : MemberAccess) : List Method :=
  if access = .hiddenOnly then
    (system.methods type).filter fun method =>
      (hiddenNames system type).contains method.definition.name
  else
    (system.methods type).filter fun method => access.admits method.definition.visibility

/-- Adds a method to the group of a name and staticness. -/
def join (groups : MethodGroups) (key : String × Bool) (method : Method) : MethodGroups :=
  groups.insert key ((groups.get? key).getD [] ++ [method])

/-- What a walk over methods has found: the accessor members, and the groups. -/
structure MethodWalk where
  accessors : List CatalogMember
  groups : MethodGroups

/-- One step of the walk; once a name has a group, every later method of the name joins it. -/
def MethodWalk.step (walk : MethodWalk) (method : Method) : MethodWalk :=
  let key := (method.definition.name, method.definition.isStatic)
  if walk.groups.contains key then { walk with groups := join walk.groups key method }
  else
    match roleOf system method.definition with
    | .skipped => walk
    | .accessor kind name =>
        { walk with
          accessors := walk.accessors ++ [⟨name, method.definition.isStatic, kind, .accessor method⟩] }
    | .grouped => { walk with groups := join walk.groups key method }

/-- The walk over the methods that can be offered at all. -/
def walkMethods (type : TypeRef) (access : MemberAccess) : MethodWalk :=
  ((walkedMethods system type access).filter fun method => system.isSupported method.definition).foldl
    (MethodWalk.step system) ⟨[], .empty⟩

/-- The extension methods that join the instance groups of a walk. -/
def joiningExtensions (type : TypeRef) (access : MemberAccess) (extensions : ExtensionMap) : List Method :=
  (extensions.methodsOf type).filter fun method =>
    access.admits .visible || (hiddenNames system type).contains method.definition.name

/-- The method groups of a type, with its extension methods. -/
def methodGroups (type : TypeRef) (access : MemberAccess) (extensions : Option ExtensionMap) :
    MethodGroups :=
  (extensions.elim [] (joiningExtensions system type access)).foldl
    (fun groups method => join groups (method.definition.name, false) method)
    (walkMethods system type access).groups

/-- The operators among method groups; groups of one operator are joined. -/
def operatorGroups (groups : MethodGroups) : FinMap Operator (List Method) :=
  groups.entries.foldl
    (fun operators entry =>
      (Operator.ofMethodName? entry.1.1).elim operators fun operator =>
        operators.insert operator ((operators.get? operator).getD [] ++ entry.2))
    .empty

/-- The members that the method groups make, operators apart. -/
def groupMembers (groups : MethodGroups) : List CatalogMember :=
  (groups.entries.filter fun entry => (Operator.ofMethodName? entry.1.1).isNone).map fun entry =>
    ⟨entry.1.1, entry.1.2, .method, .methods entry.2⟩

/-- The catalog of the members of a type that a walk takes. -/
def ofType (type : TypeRef) (access : MemberAccess) (extensions : Option ExtensionMap) : Catalog :=
  let fields := scriptFields system type access
  let groups := methodGroups system type access extensions
  { constants := fields.filter fun entry => isConstant entry.2
    members :=
      ((fields.filter fun entry => !isConstant entry.2).flatMap fun entry => fieldMembers entry.1 entry.2) ++
        eventMembers system type access ++ (walkMethods system type access).accessors ++
        groupMembers groups
    operators := operatorGroups groups
    indexers := keyedIndexers system type access }

end Catalog

end ScriptBridge
