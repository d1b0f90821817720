import ScriptBridge.Binding.Callable

/-!
# Members and what declares them

What a member of a catalog is made of is declared by the type itself, with the kind,
the staticness and the script name of the member; a method group of instances can
also hold extension methods of the type. Types that are declared later change
nothing about that.
-/

namespace ScriptBridge

/-- The types of one system are those of the other, and maybe more. -/
def TypeSystem.Precedes (system later : TypeSystem) : Prop := system.types <+: later.types

/-- The name that scripts have for a field; a field with the name of an event is the slot of the event. -/
def TypeSystem.scriptName (system : TypeSystem) (type : TypeRef) (field : FieldDef) : String :=
  if (system.definition type).events.any fun event => event.name == field.name then "&" ++ field.name
  else field.name

/-- The first parameter takes the type, or a generic parameter that is first of all constrained to it. -/
def MethodDef.Receives (method : MethodDef) (type : TypeRef) : Prop :=
  ∃ parameter, method.parameters.head? = some parameter ∧
    (parameter.type = .host type ∨
      ∃ index generic, parameter.type = .generic index ∧ method.generics[index]? = some generic ∧
        generic.constraints.head? = some type)

/-- The method is a visible extension method of the type. -/
structure Method.Extends (system : TypeSystem) (type : TypeRef) (method : Method) : Prop where
  declared : method ∈ system.methods method.owner
  isStatic : method.definition.isStatic = true
  isExtension : method.definition.isExtension = true
  visible : method.definition.visibility = .visible
  receives : method.definition.Receives type

/-- The methods of a group have its name; they are declared by the type, or extend its instances. -/
structure TypeSystem.Groups (system : TypeSystem) (type : TypeRef) (name : String) (isStatic : Bool)
    (methods : List Method) : Prop where
  nonempty : methods ≠ []
  named : ∀ method ∈ methods, method.definition.name = name
  offered : ∀ method ∈ methods,
    (method ∈ system.methods type ∧ method.definition.isStatic = isStatic) ∨
      (isStatic = false ∧ method.Extends system type)

/-- The member is made from what the type declares with its kind, staticness and script name. -/
def CatalogMember.DeclaredBy (system : TypeSystem) (type : TypeRef) (member : CatalogMember) : Prop :=
  match member.source with
  | .field field =>
      (member.kind = .fieldGet ∨ member.kind = .fieldSet) ∧ field ∈ system.fields type ∧
        field.definition.isStatic = member.isStatic ∧ system.scriptName type field.definition = member.name
  | .accessor method =>
      method ∈ system.methods type ∧ method.definition.isStatic = member.isStatic ∧
        Catalog.accessedProperty? method.definition = some (member.kind, member.name)
  | .event event =>
      member.kind = .event ∧ event ∈ (system.definition type).events ∧ event.isStatic = member.isStatic ∧
        event.name = member.name
  | .methods methods => member.kind = .method ∧ system.Groups type member.name member.isStatic methods

/-- The extension methods of a type extend it. -/
def ExtensionMap.DeclaredIn (system : TypeSystem) (extensions : ExtensionMap) : Prop :=
  ∀ type, ∀ method ∈ extensions.methodsOf type, method.Extends system type

namespace TypeSystem

variable {system later : TypeSystem} {type : TypeRef}

theorem Precedes.refl (system : TypeSystem) : system.Precedes system := List.prefix_refl _

theorem Precedes.trans {middle : TypeSystem} (first : system.Precedes middle) (second : middle.Precedes later) :
    system.Precedes later :=
  List.IsPrefix.trans first second

theorem precedes_of_declare? {definition : TypeDef} {extended : TypeSystem}
    (declared : system.declare? definition = some (type, extended)) : system.Precedes extended := by
  rw [declare?] at declared
  split at declared
  next =>
    rcases Prod.mk.inj (Option.some.inj declared) with ⟨-, rfl⟩
    exact List.prefix_append _ _
  next => cases declared

/-- A declaration stays as it is; a type that is not declared yet has no members. -/
theorem Precedes.definition_eq (precedes : system.Precedes later) (type : TypeRef) :
    ((later.definition type).fields = (system.definition type).fields ∧
      (later.definition type).methods = (system.definition type).methods ∧
      (later.definition type).events = (system.definition type).events) ∨
    ((system.definition type).fields = [] ∧ (system.definition type).methods = [] ∧
      (system.definition type).events = []) := by
  cases type with
  | declared index =>
      rcases precedes with ⟨more, extended⟩
      rw [definition, definition, ← extended]
      rcases Nat.lt_or_ge index system.types.length with earlier | absent
      · rw [List.getElem?_append_left earlier]
        exact .inl ⟨rfl, rfl, rfl⟩
      · rw [List.getElem?_eq_none absent]
        exact .inr ⟨rfl, rfl, rfl⟩
  | array element => exact .inl ⟨rfl, rfl, rfl⟩

theorem Precedes.mem_methods (precedes : system.Precedes later) {method : Method}
    (declared : method ∈ system.methods type) : method ∈ later.methods type := by
  rcases precedes.definition_eq type with ⟨-, same, -⟩ | ⟨-, none, -⟩
  · rwa [methods, same]
  · rw [methods, none] at declared
    cases declared

theorem Precedes.field (precedes : system.Precedes later) {field : Field}
    (declared : field ∈ system.fields type) :
    field ∈ later.fields type ∧ later.scriptName type field.definition = system.scriptName type field.definition := by
  rcases precedes.definition_eq type with ⟨same, -, sameEvents⟩ | ⟨none, -, -⟩
  · exact ⟨by rwa [fields, same], by rw [scriptName, sameEvents]; rfl⟩
  · rw [fields, none] at declared
    cases declared

theorem Precedes.mem_events (precedes : system.Precedes later) {event : EventDef}
    (declared : event ∈ (system.definition type).events) : event ∈ (later.definition type).events := by
  rcases precedes.definition_eq type with ⟨-, -, same⟩ | ⟨-, -, none⟩
  · rwa [same]
  · rw [none] at declared
    cases declared

theorem Precedes.base? {base : TypeRef} (precedes : system.Precedes later) (given : system.base? type = some base) :
    later.base? type = some base := by
  cases type with
  | declared index =>
      rcases precedes with ⟨more, extended⟩
      rw [TypeSystem.base?, definition] at given ⊢
      rcases Nat.lt_or_ge index system.types.length with earlier | absent
      · rwa [← extended, List.getElem?_append_left earlier]
      · rw [List.getElem?_eq_none absent] at given
        cases given
  | array element => exact given

theorem Precedes.mem_ancestors (precedes : system.Precedes later) {ancestor : TypeRef}
    (above : ancestor ∈ system.ancestors type) : ancestor ∈ later.ancestors type := by
  rw [ancestors] at above ⊢
  generalize type.rank = steps at above ⊢
  induction steps generalizing type with
  | zero => cases above
  | succ steps ih =>
      rw [climb] at above ⊢
      cases given : system.base? type with
      | none =>
          rw [given] at above
          cases above
      | some base =>
          rw [given] at above
          rw [precedes.base? given]
          rcases List.mem_cons.mp above with rfl | higher
          · exact List.mem_cons_self
          · exact List.mem_cons_of_mem _ (ih higher)

theorem Precedes.extends (precedes : system.Precedes later) {method : Method}
    (holds : method.Extends system type) : method.Extends later type :=
  { holds with declared := precedes.mem_methods holds.declared }

theorem Precedes.groups (precedes : system.Precedes later) {name : String} {isStatic : Bool}
    {methods : List Method} (holds : system.Groups type name isStatic methods) :
    later.Groups type name isStatic methods where
  nonempty := holds.nonempty
  named := holds.named
  offered method member :=
    (holds.offered method member).imp (fun own => ⟨precedes.mem_methods own.1, own.2⟩)
      fun other => ⟨other.1, precedes.extends other.2⟩

end TypeSystem

theorem CatalogMember.DeclaredBy.later {system later : TypeSystem} {type : TypeRef} {member : CatalogMember}
    (declared : member.DeclaredBy system type) (precedes : system.Precedes later) :
    member.DeclaredBy later type := by
  rcases member with ⟨name, isStatic, kind, source⟩
  cases source with
  | field field =>
      rcases declared with ⟨isField, present, sameStatic, named⟩
      rcases precedes.field present with ⟨still, sameName⟩
      exact ⟨isField, still, sameStatic, sameName.trans named⟩
  | accessor method =>
      rcases declared with ⟨present, sameStatic, accesses⟩
      exact ⟨precedes.mem_methods present, sameStatic, accesses⟩
  | event event =>
      rcases declared with ⟨isEvent, present, sameStatic, named⟩
      exact ⟨isEvent, precedes.mem_events present, sameStatic, named⟩
  | methods methods => exact ⟨declared.1, precedes.groups declared.2⟩

theorem ExtensionMap.DeclaredIn.later {system later : TypeSystem} {extensions : ExtensionMap}
    (declared : extensions.DeclaredIn system) (precedes : system.Precedes later) :
    extensions.DeclaredIn later :=
  fun type method member => precedes.extends (declared type method member)

namespace TypeSystem

variable (system : TypeSystem)

theorem owner_of_mem_methods {type : TypeRef} {method : Method} (declared : method ∈ system.methods type) :
    method.owner = type := by
  simp only [methods, List.mem_mapIdx] at declared
  rcases declared with ⟨_, _, rfl⟩
  rfl

end TypeSystem

namespace ExtensionMap

variable (system : TypeSystem)

theorem receives_of_extendedType? {method : MethodDef} {type : TypeRef}
    (extended : extendedType? system method = some type) : method.Receives type := by
  rw [extendedType?] at extended
  split at extended
  next => cases extended
  next parameter first =>
    refine ⟨parameter, first, ?_⟩
    split at extended
    next other isHost =>
      rcases Option.some.inj extended with rfl
      exact .inl isHost
    next index isGeneric =>
      rcases Option.filter_eq_some_iff.mp extended with ⟨found, -⟩
      rcases Option.bind_eq_some_iff.mp found with ⟨generic, present, constrained⟩
      exact .inr ⟨index, generic, isGeneric, present, constrained⟩

theorem declaredIn_empty : empty.DeclaredIn system := by
  intro type method member
  cases member

theorem DeclaredIn.add {extensions : ExtensionMap} {type : TypeRef} {method : Method}
    (declared : extensions.DeclaredIn system) (extends_ : method.Extends system type) :
    (extensions.add type method).DeclaredIn system := by
  intro other found member
  rw [methodsOf, ExtensionMap.add, FinMap.get?_insert] at member
  split at member
  next same =>
    subst same
    rcases List.mem_append.mp member with older | added
    · exact declared _ _ older
    · rwa [List.mem_singleton.mp added]
  next => exact declared _ _ member

theorem declaredIn_collect (registry : Registry) : (collect system registry).DeclaredIn system := by
  rw [collect, ofContainers]
  generalize registry.extensionContainers system = containers
  have declared : ∀ method ∈ containers.flatMap system.methods, method ∈ system.methods method.owner := by
    intro method member
    rcases List.mem_flatMap.mp member with ⟨type, -, present⟩
    rwa [system.owner_of_mem_methods present]
  generalize containers.flatMap system.methods = methods at declared
  have start := declaredIn_empty system
  generalize empty = extensions at start
  induction methods generalizing extensions with
  | nil => exact start
  | cons method rest ih =>
      refine ih (fun other member => declared other (List.mem_cons_of_mem _ member)) _ ?_
      dsimp only
      split
      next offered =>
        simp only [isOffered, Bool.and_eq_true, decide_eq_true_eq] at offered
        cases extended : extendedType? system method.definition with
        | none => exact start
        | some type =>
            exact start.add system ⟨declared method List.mem_cons_self, offered.1.1.1, offered.1.1.2,
              offered.1.2, receives_of_extendedType? system extended⟩
      next => exact start

end ExtensionMap

namespace Catalog

variable {system : TypeSystem} {type : TypeRef}

/-- The groups are made of methods that the type declares or that extend it. -/
def GroupsOf (system : TypeSystem) (type : TypeRef) (groups : MethodGroups) : Prop :=
  ∀ entry ∈ groups.entries, system.Groups type entry.1.1 entry.1.2 entry.2

theorem GroupsOf.join {groups : MethodGroups} (holds : GroupsOf system type groups) {isStatic : Bool}
    {method : Method}
    (offered : (method ∈ system.methods type ∧ method.definition.isStatic = isStatic) ∨
      (isStatic = false ∧ method.Extends system type)) :
    GroupsOf system type (join groups (method.definition.name, isStatic) method) := by
  intro entry member
  rcases FinMap.mem_entries_insert member with rfl | older
  -- The group that the method joins may not be there yet; then it joins no methods.
  · have before : ∀ other ∈ (groups.get? (method.definition.name, isStatic)).getD [],
        other.definition.name = method.definition.name ∧
          ((other ∈ system.methods type ∧ other.definition.isStatic = isStatic) ∨
            (isStatic = false ∧ other.Extends system type)) := by
      intro other present
      cases found : groups.get? (method.definition.name, isStatic) with
      | none => rw [found] at present; cases present
      | some methods =>
          rw [found] at present
          have known := holds _ (FinMap.mem_entries_of_get? found)
          exact ⟨known.named other present, known.offered other present⟩
    refine ⟨by simp, ?_, ?_⟩
    · intro other present
      rcases List.mem_append.mp present with known | added
      · exact (before other known).1
      · rw [List.mem_singleton.mp added]
    · intro other present
      rcases List.mem_append.mp present with known | added
      · exact (before other known).2
      · rwa [List.mem_singleton.mp added]
  · exact holds entry older

theorem accessedProperty?_of_roleOf {method : MethodDef} {kind : MemberKind} {name : String}
    (role : roleOf system method = .accessor kind name) : accessedProperty? method = some (kind, name) := by
  grind [roleOf]

/-- What a walk has found so far is declared by the type. -/
structure MethodWalk.Declared (system : TypeSystem) (type : TypeRef) (walk : MethodWalk) : Prop where
  accessors : ∀ member ∈ walk.accessors, member.DeclaredBy system type
  groups : GroupsOf system type walk.groups

theorem MethodWalk.Declared.step {walk : MethodWalk} (holds : walk.Declared system type) {method : Method}
    (declared : method ∈ system.methods type) : (walk.step system method).Declared system type := by
  rw [MethodWalk.step]
  split
  · exact ⟨holds.accessors, holds.groups.join (.inl ⟨declared, rfl⟩)⟩
  · split
    next => exact holds
    next kind name role =>
      refine ⟨fun member present => ?_, holds.groups⟩
      rcases List.mem_append.mp present with known | added
      · exact holds.accessors member known
      · rw [List.mem_singleton.mp added]
        exact ⟨declared, rfl, accessedProperty?_of_roleOf role⟩
    next => exact ⟨holds.accessors, holds.groups.join (.inl ⟨declared, rfl⟩)⟩

theorem MethodWalk.Declared.foldl {walk : MethodWalk} (holds : walk.Declared system type)
    {methods : List Method} (declared : ∀ method ∈ methods, method ∈ system.methods type) :
    (methods.foldl (MethodWalk.step system) walk).Declared system type := by
  induction methods generalizing walk with
  | nil => exact holds
  | cons method rest ih =>
      rw [List.foldl_cons]
      exact ih (holds.step (declared method List.mem_cons_self)) fun other member =>
        declared other (List.mem_cons_of_mem _ member)

theorem mem_methods_of_walked {access : MemberAccess} {method : Method}
    (walked : method ∈ walkedMethods system type access) : method ∈ system.methods type := by
  rw [walkedMethods] at walked
  split at walked
  · exact (List.mem_filter.mp walked).1
  · exact (List.mem_filter.mp walked).1

theorem declared_walkMethods (system : TypeSystem) (type : TypeRef) (access : MemberAccess) :
    (walkMethods system type access).Declared system type := by
  have start : MethodWalk.Declared system type ⟨[], .empty⟩ := by
    constructor
    · exact fun _ present => absurd present List.not_mem_nil
    · exact fun _ present => absurd present List.not_mem_nil
  rw [walkMethods]
  exact start.foldl fun method member => mem_methods_of_walked (List.mem_filter.mp member).1

theorem groupsOf_methodGroups (access : MemberAccess) {extensions : Option ExtensionMap}
    (known : ∀ map, extensions = some map → map.DeclaredIn system) :
    GroupsOf system type (methodGroups system type access extensions) := by
  rw [methodGroups]
  have joining : ∀ method ∈ extensions.elim [] (joiningExtensions system type access),
      method.Extends system type := by
    cases extensions with
    | none => exact fun _ present => absurd present List.not_mem_nil
    | some map => exact fun method member => known map rfl type method (List.mem_filter.mp member).1
  generalize extensions.elim [] (joiningExtensions system type access) = methods at joining
  have start := (declared_walkMethods system type access).groups
  generalize (walkMethods system type access).groups = groups at start
  induction methods generalizing groups with
  | nil => exact start
  | cons method rest ih =>
      exact ih (fun other member => joining other (List.mem_cons_of_mem _ member)) _
        (start.join (.inr ⟨rfl, joining method List.mem_cons_self⟩))

/-- Every member of the catalog of a type is made from what the type declares. -/
theorem declaredBy_of_mem {access : MemberAccess} {extensions : Option ExtensionMap}
    (known : ∀ map, extensions = some map → map.DeclaredIn system) {member : CatalogMember}
    (listed : member ∈ (ofType system type access extensions).members) : member.DeclaredBy system type := by
  simp only [ofType, List.mem_append] at listed
  rcases listed with ((ofField | ofEvent) | ofAccessor) | ofGroup
  · rcases List.mem_flatMap.mp ofField with ⟨entry, kept, made⟩
    have scripted := (List.mem_filter.mp kept).1
    rcases List.mem_map.mp scripted with ⟨field, present, rfl⟩
    have declared := (List.mem_filter.mp present).1
    simp only [fieldMembers, List.mem_cons, List.not_mem_nil, or_false] at made
    rcases made with rfl | rfl
    · exact ⟨.inl rfl, declared, rfl, rfl⟩
    · exact ⟨.inr rfl, declared, rfl, rfl⟩
  · rcases List.mem_map.mp ofEvent with ⟨event, present, rfl⟩
    exact ⟨rfl, (List.mem_filter.mp present).1, rfl, rfl⟩
  · exact (declared_walkMethods system type access).accessors member ofAccessor
  · rcases List.mem_map.mp ofGroup with ⟨entry, present, rfl⟩
    exact ⟨rfl, groupsOf_methodGroups access known entry (List.mem_filter.mp present).1⟩

end Catalog

end ScriptBridge
