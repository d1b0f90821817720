import ScriptBridge.Proofs.Natives.Runners
import ScriptBridge.Proofs.Tables.Declared

/-!
# Lawful callables

What the native code of a member works on: an instance of the type that declares it, a
new instance of that type, or nothing. A callable is lawful when it runs members of its
types in the way that their declarations ask for. The callables that are made from
declarations are lawful, if operators are static.
-/

namespace ScriptBridge

/-- What native code works on. -/
inductive Subject where
  | nothing
  | instanceOf (type : TypeRef)
  | newInstanceOf (type : TypeRef)
deriving DecidableEq

namespace NativeMember

/-- What the code of a member works on, by its declaration. -/
def subject : NativeMember → Subject
  | method declared =>
      match declared.place with
      | .constructor _ => .newInstanceOf declared.owner
      | .method _ =>
          if declared.definition.isStatic || declared.definition.isExtension then .nothing
          else .instanceOf declared.owner
  | indexer owner property _ => if property.isStatic then .nothing else .instanceOf owner
  | event owner declared _ => if declared.isStatic then .nothing else .instanceOf owner

/-- The member is one that its type declares. -/
def DeclaredIn (system : TypeSystem) : NativeMember → Prop
  | method declared =>
      declared ∈ system.methods declared.owner ∨ declared ∈ system.constructors declared.owner
  | indexer owner property accessor =>
      property ∈ (system.definition owner).properties ∧ property.isIndexer = true ∧
        (property.getter = some accessor ∨ property.setter = some accessor)
  | event owner declared accessor =>
      declared ∈ (system.definition owner).events ∧ (accessor = declared.add ∨ accessor = declared.remove)

end NativeMember

/-- Operators are static, and indexers are not. -/
structure TypeDef.Regular (definition : TypeDef) : Prop where
  operators : ∀ method ∈ definition.methods,
    (Operator.ofMethodName? method.name).isSome = true → method.isStatic = true
  indexers : ∀ property ∈ definition.properties, property.isIndexer = true → property.isStatic = false

def TypeSystem.Regular (system : TypeSystem) : Prop := ∀ type, (system.definition type).Regular

namespace OverloadGroup

/-- What a call of a candidate gives to its code. -/
def subject (group : OverloadGroup) (candidate : Candidate) : Subject :=
  match group.shape with
  | .onInstance => if candidate.isExtension then .nothing else .instanceOf group.owner
  | .onType => .nothing
  | .construction => .newInstanceOf group.owner

/-- Every candidate is declared, and gets from the group what its declaration asks for. -/
def Lawful (system : TypeSystem) (group : OverloadGroup) : Prop :=
  ∀ candidate ∈ group.candidates, (NativeMember.method candidate.method).DeclaredIn system ∧
    (NativeMember.method candidate.method).subject = group.subject candidate

end OverloadGroup

/-- The callable runs declared members only, and each in the way that its declaration asks for. -/
def Callable.Lawful (system : TypeSystem) : Callable → Prop
  | .method group | .constructor group => group.Lawful system
  | .itemGetter owner properties | .itemSetter owner properties =>
      ∀ property ∈ properties, property ∈ (system.definition owner).properties
  | .event owner declared => declared ∈ (system.definition owner).events
  | _ => True

namespace TypeSystem

variable {system later : TypeSystem} {type : TypeRef}

theorem regular_of_types (regular : ∀ definition ∈ system.types, definition.Regular) : system.Regular := by
  intro type
  cases type with
  | declared index =>
      rw [definition]
      cases found : system.types[index]? with
      | none => exact ⟨fun _ listed => (List.not_mem_nil listed).elim, fun _ listed => (List.not_mem_nil listed).elim⟩
      | some known => exact regular known (List.mem_of_getElem? found)
  | array element => exact ⟨fun _ listed => (List.not_mem_nil listed).elim, fun _ listed => (List.not_mem_nil listed).elim⟩

theorem regular_of_declare? {definition : TypeDef} (regular : system.Regular) (added : definition.Regular)
    (declared : system.declare? definition = some (type, later)) : later.Regular := by
  have known : ∀ definition ∈ system.types, definition.Regular := by
    intro definition listed
    rcases List.mem_iff_getElem?.mp listed with ⟨index, found⟩
    have here := regular (.declared index)
    rwa [TypeSystem.definition, found] at here
  rw [declare?] at declared
  split at declared
  next =>
    rcases Prod.mk.inj (Option.some.inj declared) with ⟨-, rfl⟩
    refine regular_of_types fun other listed => ?_
    rcases List.mem_append.mp listed with older | new
    · exact known other older
    · rwa [List.mem_singleton.mp new]
  next => cases declared

/-- Constructors and properties of a type stay; a type that is not declared yet has none. -/
theorem Precedes.constructors_eq (precedes : system.Precedes later) (type : TypeRef) :
    ((later.definition type).constructors = (system.definition type).constructors ∧
      (later.definition type).properties = (system.definition type).properties) ∨
    ((system.definition type).constructors = [] ∧ (system.definition type).properties = []) := by
  cases type with
  | declared index =>
      rcases precedes with ⟨more, extended⟩
      rw [definition, definition, ← extended]
      rcases Nat.lt_or_ge index system.types.length with earlier | absent
      · rw [List.getElem?_append_left earlier]
        exact .inl ⟨rfl, rfl⟩
      · rw [List.getElem?_eq_none absent]
        exact .inr ⟨rfl, rfl⟩
  | array element => exact .inl ⟨rfl, rfl⟩

theorem Precedes.mem_constructors (precedes : system.Precedes later) {method : Method}
    (declared : method ∈ system.constructors type) : method ∈ later.constructors type := by
  rcases precedes.constructors_eq type with ⟨same, -⟩ | ⟨none, -⟩
  · rwa [constructors, same]
  · rw [constructors, none] at declared
    cases declared

theorem Precedes.mem_properties (precedes : system.Precedes later) {property : PropertyDef}
    (declared : property ∈ (system.definition type).properties) :
    property ∈ (later.definition type).properties := by
  rcases precedes.constructors_eq type with ⟨-, same⟩ | ⟨-, none⟩
  · rwa [same]
  · rw [none] at declared
    cases declared

theorem mem_constructors_cases {method : Method} (declared : method ∈ system.constructors type) :
    method.owner = type ∧ ∃ position, method.place = .constructor position := by
  simp only [constructors, List.mem_mapIdx] at declared
  rcases declared with ⟨position, _, rfl⟩
  exact ⟨rfl, position, rfl⟩

theorem place_of_mem_methods {method : Method} (declared : method ∈ system.methods type) :
    ∃ position, method.place = .method position := by
  simp only [methods, List.mem_mapIdx] at declared
  rcases declared with ⟨position, _, rfl⟩
  exact ⟨position, rfl⟩

/-- The code of a declared method works on nothing, if the method is static or an extension method. -/
theorem subject_of_mem_methods {method : Method} (declared : method ∈ system.methods type) :
    (NativeMember.method method).subject =
      if method.definition.isStatic || method.definition.isExtension then .nothing else .instanceOf type := by
  rcases place_of_mem_methods declared with ⟨position, placed⟩
  simp only [NativeMember.subject, placed, system.owner_of_mem_methods declared]

theorem declaredIn_of_mem_methods {method : Method} (declared : method ∈ system.methods type) :
    (NativeMember.method method).DeclaredIn system :=
  .inl (by rwa [system.owner_of_mem_methods declared])

end TypeSystem

theorem Callable.Lawful.later {system later : TypeSystem} {callable : Callable} (lawful : callable.Lawful system)
    (precedes : system.Precedes later) : callable.Lawful later := by
  have groups {group : OverloadGroup} (lawful : group.Lawful system) : group.Lawful later :=
    fun candidate listed => (lawful candidate listed).imp_left fun declared =>
      declared.imp precedes.mem_methods precedes.mem_constructors
  cases callable with
  | method group => exact groups lawful
  | constructor group => exact groups lawful
  | itemGetter owner properties => exact fun property listed => precedes.mem_properties (lawful property listed)
  | itemSetter owner properties => exact fun property listed => precedes.mem_properties (lawful property listed)
  | event owner event => exact precedes.mem_events lawful
  | _ => trivial

namespace OverloadGroup

variable {system : TypeSystem} {type : TypeRef} {shape : CallShape} {name : String} {methods : List Method}

/-- A candidate is one of the methods; it is an extension if the method is one and instances are called. -/
theorem candidate_of_mem {candidate : Candidate}
    (listed : candidate ∈ (ofMethods system type name shape methods).candidates) :
    candidate.method ∈ methods ∧
      candidate.isExtension = (candidate.method.definition.isExtension && shape = .onInstance) := by
  rcases List.mem_filterMap.mp listed with ⟨method, present, made⟩
  rw [candidate?] at made
  split at made
  next =>
    rcases Option.map_eq_some_iff.mp made with ⟨_, -, rfl⟩
    exact ⟨present, rfl⟩
  next => cases made

/-- A group of declared methods and of extension methods is lawful on instances. -/
theorem lawful_onInstance
    (offered : ∀ method ∈ methods,
      (method ∈ system.methods type ∧ method.definition.isStatic = false) ∨ method.Extends system type) :
    (ofMethods system type name .onInstance methods).Lawful system := by
  intro candidate listed
  rcases candidate_of_mem listed with ⟨present, extension⟩
  rcases offered _ present with ⟨declared, onInstances⟩ | extends_
  · refine ⟨TypeSystem.declaredIn_of_mem_methods declared, ?_⟩
    rw [TypeSystem.subject_of_mem_methods declared, onInstances, subject, extension]
    simp [ofMethods]
  · refine ⟨TypeSystem.declaredIn_of_mem_methods extends_.declared, ?_⟩
    rw [TypeSystem.subject_of_mem_methods extends_.declared, subject, extension]
    simp [ofMethods, extends_.isExtension]

/-- A group of static methods is lawful on the type. -/
theorem lawful_onType
    (offered : ∀ method ∈ methods, ∃ owner, method ∈ system.methods owner ∧ method.definition.isStatic = true) :
    (ofMethods system type name .onType methods).Lawful system := by
  intro candidate listed
  rcases offered _ (candidate_of_mem listed).1 with ⟨owner, declared, isStatic⟩
  refine ⟨TypeSystem.declaredIn_of_mem_methods declared, ?_⟩
  rw [TypeSystem.subject_of_mem_methods declared, isStatic, subject]
  rfl

theorem lawful_construction (offered : ∀ method ∈ methods, method ∈ system.constructors type) :
    (ofMethods system type name .construction methods).Lawful system := by
  intro candidate listed
  have declared := offered _ (candidate_of_mem listed).1
  rcases TypeSystem.mem_constructors_cases declared with ⟨rfl, position, placed⟩
  refine ⟨.inr declared, ?_⟩
  simp only [NativeMember.subject, placed]
  rfl

end OverloadGroup

namespace Callable

variable {system : TypeSystem} {type : TypeRef}

/-- The callable of a declared member is lawful. -/
theorem lawful_ofMember {member : CatalogMember} (declared : member.DeclaredBy system type) :
    (ofMember system type member).Lawful system := by
  rcases member with ⟨name, isStatic, kind, source⟩
  cases source with
  | field field =>
      simp only [ofMember]
      split <;> trivial
  | accessor method =>
      rcases declared with ⟨present, sameStatic, -⟩
      rw [← system.owner_of_mem_methods present] at present
      cases isStatic with
      | true =>
          refine OverloadGroup.lawful_onType fun other listed => ⟨method.owner, ?_⟩
          rw [List.mem_singleton.mp listed]
          exact ⟨present, sameStatic⟩
      | false =>
          refine OverloadGroup.lawful_onInstance fun other listed => .inl ?_
          rw [List.mem_singleton.mp listed]
          exact ⟨present, sameStatic⟩
  | event event => exact declared.2.1
  | methods methods =>
      rcases declared with ⟨-, groups⟩
      cases isStatic with
      | true =>
          refine OverloadGroup.lawful_onType fun method listed => ⟨type, ?_⟩
          exact (groups.offered method listed).resolve_right fun extends_ => Bool.noConfusion extends_.1
      | false => exact OverloadGroup.lawful_onInstance fun method listed => (groups.offered method listed).imp_right And.right

/-- The methods that a type offers for an operator go by its name, and are declared or extend the type. -/
theorem offered_of_mem_operators {access : MemberAccess} {extensions : Option ExtensionMap}
    (known : ∀ map, extensions = some map → map.DeclaredIn system) {entry : Operator × List Method}
    (listed : entry ∈ (Catalog.ofType system type access extensions).operators.entries) :
    ∀ method ∈ entry.2, (Operator.ofMethodName? method.definition.name).isSome = true ∧
      (method ∈ system.methods type ∨ method.Extends system type) := by
  have groups : Catalog.GroupsOf system type (Catalog.methodGroups system type access extensions) :=
    Catalog.groupsOf_methodGroups access known
  simp only [Catalog.ofType, Catalog.operatorGroups] at listed
  generalize Catalog.methodGroups system type access extensions = found at groups listed
  rcases found with ⟨entries⟩
  have start : ∀ entry ∈ (FinMap.empty : FinMap Operator (List Method)).entries, ∀ method ∈ entry.2,
      (Operator.ofMethodName? method.definition.name).isSome = true ∧
        (method ∈ system.methods type ∨ method.Extends system type) :=
    fun _ present => (List.not_mem_nil present).elim
  dsimp only at listed
  generalize FinMap.empty = operators at start listed
  induction entries generalizing operators with
  | nil => exact start entry listed
  | cons group rest ih =>
      refine ih (fun other member => groups other (List.mem_cons_of_mem _ member)) _ ?_ listed
      have offered := groups group List.mem_cons_self
      cases named : Operator.ofMethodName? group.1.1 with
      | none => simpa only [named, Option.elim_none] using start
      | some operator =>
          simp only [named, Option.elim_some]
          intro other present method member
          rcases FinMap.mem_entries_insert present with rfl | older
          · rcases List.mem_append.mp member with before | added
            · cases here : operators.get? operator with
              | none => rw [here] at before; cases before
              | some methods =>
                  rw [here] at before
                  exact start _ (FinMap.mem_entries_of_get? here) method before
            · rw [offered.named method added, named]
              exact ⟨rfl, (offered.offered method added).imp And.left And.right⟩
          · exact start other older method member

theorem lawful_ofOperator (regular : system.Regular) {access : MemberAccess} {extensions : Option ExtensionMap}
    (known : ∀ map, extensions = some map → map.DeclaredIn system) {entry : Operator × List Method}
    (listed : entry ∈ (Catalog.ofType system type access extensions).operators.entries) :
    (ofOperator system type entry.1 entry.2).Lawful system := by
  refine OverloadGroup.lawful_onType fun method member => ?_
  rcases offered_of_mem_operators known listed method member with ⟨named, declared | extends_⟩
  · refine ⟨type, declared, (regular type).operators _ ?_ named⟩
    simp only [TypeSystem.methods, List.mem_mapIdx] at declared
    rcases declared with ⟨position, bound, rfl⟩
    exact List.getElem_mem bound
  · exact ⟨method.owner, extends_.declared, extends_.isStatic⟩

theorem mem_properties_of_indexers {access : MemberAccess} {extensions : Option ExtensionMap}
    {property : PropertyDef} (listed : property ∈ (Catalog.ofType system type access extensions).indexers) :
    property ∈ (system.definition type).properties := by
  simp only [Catalog.ofType, Catalog.keyedIndexers] at listed
  split at listed
  · exact (List.mem_filter.mp listed).1
  · cases listed

theorem lawful_constructor {host : Host} {callable : Callable} (given : host.constructorCallable? type = some callable) :
    callable.Lawful host.system := by
  simp only [Host.constructorCallable?] at given
  split at given
  · rcases Option.some.inj given with rfl
    trivial
  · split at given
    · cases given
    · split at given
      · cases given
      · rcases Option.some.inj given with rfl
        exact OverloadGroup.lawful_construction fun method listed => (List.mem_filter.mp listed).1

end Callable

end ScriptBridge
