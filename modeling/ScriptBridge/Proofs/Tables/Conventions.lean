import Mathlib.Data.List.Nodup
import ScriptBridge.Host.Declaration
import ScriptBridge.Proofs.Tables.Named

/-!
# Visible members first, hidden members later

When the special methods of a type are those that declaring properties, events and
operators makes, and no two members that are not methods have one name, then the
members of a walk over hidden members, written over those of a walk over visible
members, are at every place the members of a walk over all.

Fields, events and accessors are walked each by its own visibility, and all of one
name have the same. Method groups are walked by name.
-/

namespace ScriptBridge

namespace Text

theorem opens_append (start other rest : String) :
    opens start (other ++ rest) = start.toList.isPrefixOf (other.toList ++ rest.toList) := by
  rw [opens, String.toList_append]

theorem after?_append (start rest : String) : after? start (start ++ rest) = some rest := by
  have opened : opens start (start ++ rest) = true := by
    rw [opens_append, List.isPrefixOf_iff_prefix]
    exact List.prefix_append _ _
  rw [after?, if_pos opened, String.toList_append, List.drop_left, String.ofList_toList]

theorem after?_eq_none {start text : String} : after? start text = none ↔ opens start text = false := by
  rw [after?]
  split <;> simp_all

end Text

/-! ## Special methods -/

/-- The method is what declaring the property makes to read it or to write it. -/
def PropertyDef.HasAccessor (property : PropertyDef) (method : MethodDef) : Prop :=
  method.isStatic = property.isStatic ∧ method.visibility = property.visibility ∧
    (method.name = "get_" ++ property.name ∧
        method.parameters.length = property.indexParameters.length ∨
      method.name = "set_" ++ property.name ∧
        method.parameters.length = property.indexParameters.length + 1)

instance (property : PropertyDef) (method : MethodDef) : Decidable (property.HasAccessor method) :=
  inferInstanceAs (Decidable (_ ∧ _ ∧ _))

/-- The method is what declaring the event makes to add handlers or to remove them. -/
def EventDef.HasAccessor (event : EventDef) (method : MethodDef) : Prop :=
  method.isStatic = event.isStatic ∧ (method.name = "add_" ++ event.name ∨ method.name = "remove_" ++ event.name)

instance (event : EventDef) (method : MethodDef) : Decidable (event.HasAccessor method) :=
  inferInstanceAs (Decidable (_ ∧ _))

/-- Operators are static and have no names of property accessors. -/
def MethodDef.IsOperator (method : MethodDef) : Prop :=
  method.isStatic = true ∧ Text.opens "get_" method.name = false ∧ Text.opens "set_" method.name = false

instance (method : MethodDef) : Decidable method.IsOperator := inferInstanceAs (Decidable (_ ∧ _))

namespace TypeDef

/-- The method is an accessor of a property or event of the type, or an operator. -/
def AccountsFor (definition : TypeDef) (method : MethodDef) : Prop :=
  (∃ property ∈ definition.properties, property.HasAccessor method) ∨
    (∃ event ∈ definition.events, event.HasAccessor method) ∨ method.IsOperator

instance (definition : TypeDef) (method : MethodDef) : Decidable (definition.AccountsFor method) :=
  inferInstanceAs (Decidable (_ ∨ _))

/-- Declarations make no other special methods. -/
def AccountsForAll (definition : TypeDef) : Prop :=
  ∀ method ∈ definition.methods, method.isSpecial = true → definition.AccountsFor method

variable {definition : TypeDef}

theorem AccountsFor.mono {more : TypeDef} {method : MethodDef} (accounts : definition.AccountsFor method)
    (properties : definition.properties ⊆ more.properties) (events : definition.events ⊆ more.events) :
    more.AccountsFor method := by
  rcases accounts with ⟨property, listed, accessor⟩ | ⟨event, listed, accessor⟩ | operator
  · exact .inl ⟨property, properties listed, accessor⟩
  · exact .inr (.inl ⟨event, events listed, accessor⟩)
  · exact .inr (.inr operator)

namespace AccountsForAll

theorem addField (accounts : definition.AccountsForAll) (field : FieldDef) :
    (definition.addField field).AccountsForAll := accounts

theorem addMethods (accounts : definition.AccountsForAll) {methods : List MethodDef}
    (ordinary : ∀ method ∈ methods, method.isSpecial = false) : (definition.addMethods methods).AccountsForAll := by
  intro method listed special
  rcases List.mem_append.mp listed with known | added
  · exact accounts method known special
  · rw [ordinary method added] at special
    cases special

theorem addOperator (accounts : definition.AccountsForAll) {operator : MethodDef}
    (noReader : Text.opens "get_" operator.name = false) (noWriter : Text.opens "set_" operator.name = false) :
    (definition.addOperator operator).AccountsForAll := by
  intro method listed special
  rcases List.mem_append.mp listed with known | added
  · exact accounts method known special
  · rw [List.mem_singleton.mp added]
    exact .inr (.inr ⟨rfl, noReader, noWriter⟩)

theorem addProperty (accounts : definition.AccountsForAll) (name : String) (type : TypeRef) (isStatic : Bool)
    (visibility : Visibility) (indexParameters : List Parameter) (getter setter : Option MethodBody) :
    (definition.addProperty name type isStatic visibility indexParameters getter setter).AccountsForAll := by
  intro method listed special
  rcases List.mem_append.mp listed with known | added
  · exact (accounts method known special).mono (List.subset_append_left _ _) (List.Subset.refl _)
  · refine .inl ⟨_, List.mem_append_right _ (List.mem_singleton.mpr rfl), ?_⟩
    rcases List.mem_append.mp added with reader | writer
    · rcases Option.map_eq_some_iff.mp (Option.mem_toList.mp reader) with ⟨body, -, rfl⟩
      exact ⟨rfl, rfl, .inl ⟨rfl, rfl⟩⟩
    · rcases Option.map_eq_some_iff.mp (Option.mem_toList.mp writer) with ⟨body, -, rfl⟩
      exact ⟨rfl, rfl, .inr ⟨rfl, List.length_append⟩⟩

theorem addAutoProperty (accounts : definition.AccountsForAll) (name : String) (type : TypeRef) (isStatic : Bool)
    (initial : HostValue) : (definition.addAutoProperty name type isStatic initial).AccountsForAll :=
  (accounts.addField _).addProperty _ _ _ _ _ _ _

theorem addEvent (accounts : definition.AccountsForAll) (name : String) (handlerType : TypeRef) (isStatic : Bool)
    (initial : HostValue) : (definition.addEvent name handlerType isStatic initial).AccountsForAll := by
  intro method listed special
  rcases List.mem_append.mp listed with known | added
  · exact (accounts method known special).mono (List.Subset.refl _) (List.subset_append_left _ _)
  · refine .inr (.inl ⟨_, List.mem_append_right _ (List.mem_singleton.mpr rfl), ?_⟩)
    simp only [List.mem_cons, List.not_mem_nil, or_false] at added
    rcases added with rfl | rfl
    · exact ⟨rfl, .inl rfl⟩
    · exact ⟨rfl, .inr rfl⟩

end AccountsForAll

end TypeDef

namespace Catalog

variable {system : TypeSystem} {type : TypeRef} {extensions : Option ExtensionMap}

/-- The fields, events and plain properties that scripts have names for, with their visibility. -/
def nameables (system : TypeSystem) (type : TypeRef) : List (String × Visibility) :=
  ((scriptFields system type .all).map fun entry => (entry.1, entry.2.definition.visibility)) ++
    (((system.definition type).events.map fun event => (event.name, event.visibility)) ++
      ((system.definition type).properties.filter (!·.isIndexer)).map fun property =>
        (property.name, property.visibility))

/-- The members of a type are declared in the usual way, and their names do not clash. -/
structure Conventional (system : TypeSystem) (type : TypeRef) (extensions : Option ExtensionMap) : Prop where
  special : (system.definition type).AccountsForAll
  indexers : ∀ property ∈ (system.definition type).properties, property.isIndexer = true →
    property.name = "Item" ∧ property.indexParameters.length = 1
  plain : ∀ property ∈ (system.definition type).properties, property.isIndexer = false → property.name ≠ "Item"
  distinct : ((nameables system type).map Prod.fst).Nodup
  events : ∀ event ∈ (system.definition type).events, ∀ method ∈ (system.definition type).methods,
    method.name ≠ event.name
  /-- An event that only a later walk takes has the name of no extension method. -/
  hiddenEvents : ∀ event ∈ (system.definition type).events, event.visibility = .hidden →
    ∀ method ∈ joining system type .all extensions, method.definition.name ≠ event.name
  agree : ∀ method ∈ (system.definition type).methods, ∀ other ∈ (system.definition type).methods,
    other.name = method.name → other.isSpecial = method.isSpecial

theorem definition_mem {method : Method} (declared : method ∈ system.methods type) :
    method.definition ∈ (system.definition type).methods := by
  rw [TypeSystem.methods, List.mem_mapIdx] at declared
  rcases declared with ⟨position, inside, rfl⟩
  exact List.getElem_mem inside

/-! ## Accessors -/

theorem indexParameters_eq_nil {property : PropertyDef} (plain : property.isIndexer = false) :
    property.indexParameters = [] := by
  rw [PropertyDef.isIndexer, Bool.not_eq_false'] at plain
  exact List.isEmpty_iff.mp plain

/-- The accessors of a plain property are accessors under its name. -/
theorem roleOf_of_plain {property : PropertyDef} {method : MethodDef} (plain : property.isIndexer = false)
    (accessor : property.HasAccessor method) (special : method.isSpecial = true) :
    ∃ kind, roleOf system method = .accessor kind property.name := by
  rcases accessor with ⟨-, -, ⟨named, count⟩ | ⟨named, count⟩⟩
  · rw [indexParameters_eq_nil plain, List.length_nil] at count
    have keyed : isKeyedItemAccessor system method = false := by simp [isKeyedItemAccessor, count]
    refine ⟨.propertyGet, ?_⟩
    simp [roleOf, special, keyed, accessedProperty?, named, count, Text.opens_append, Text.after?_append]
  · rw [indexParameters_eq_nil plain, List.length_nil] at count
    have other : method.name ≠ "get_Item" := fun same => by
      have impossible := congrArg (Text.after? "get_") (named.symm.trans same)
      rw [Text.after?_eq_none.mpr (by rw [Text.opens_append]; rfl)] at impossible
      cases impossible
    have keyed : isKeyedItemAccessor system method = false := by simp [isKeyedItemAccessor, count, other]
    have noReader : Text.after? "get_" method.name = none := by
      rw [named, Text.after?_eq_none, Text.opens_append]
      rfl
    refine ⟨.propertySet, ?_⟩
    rw [roleOf, if_pos special, accessedProperty?, noReader]
    simp [keyed, named, count, Text.opens_append, Text.after?_append]

/-- An accessor under a name is one of a plain property of that name. -/
theorem exists_plain_of_role (conventional : Conventional system type extensions) {method : MethodDef}
    (declared : method ∈ (system.definition type).methods) {kind : MemberKind} {name : String}
    (role : roleOf system method = .accessor kind name) :
    ∃ property ∈ (system.definition type).properties, property.isIndexer = false ∧ property.name = name ∧
      property.HasAccessor method := by
  have special := isSpecial_of_accessor role
  have accessed := accessedProperty?_of_roleOf role
  rcases conventional.special method declared special with
    ⟨property, listed, accessor⟩ | ⟨event, -, -, named | named⟩ | ⟨-, noReader, noWriter⟩
  · refine ⟨property, listed, ?_⟩
    cases plain : property.isIndexer with
    | false =>
        rcases (roleOf_of_plain plain accessor special : ∃ kind, roleOf system _ = _) with ⟨kind, roleToo⟩
        rw [role, MethodRole.accessor.injEq] at roleToo
        exact ⟨rfl, roleToo.2.symm, accessor⟩
    | true =>
        -- The accessors of an indexer with one index parameter are methods or nothing.
        have count := (conventional.indexers property listed plain).2
        rcases accessor with ⟨-, -, ⟨named, arity⟩ | ⟨named, arity⟩⟩
        · simp [accessedProperty?, named, arity, count, Text.after?_append] at accessed
        · have noReader : Text.after? "get_" method.name = none := by
            rw [named, Text.after?_eq_none, Text.opens_append]
            rfl
          rw [accessedProperty?, noReader] at accessed
          simp [named, arity, count, Text.after?_append] at accessed
  · simp [accessedProperty?, named, Text.after?, Text.opens_append] at accessed
  · simp [accessedProperty?, named, Text.after?, Text.opens_append] at accessed
  · rw [accessedProperty?, Text.after?_eq_none.mpr noReader, Text.after?_eq_none.mpr noWriter] at accessed
    cases accessed

theorem reader_ne_writer (name other : String) : "get_" ++ name ≠ "set_" ++ other := fun same => by
  have impossible := congrArg (Text.opens "get_") same
  rw [Text.opens_append, Text.opens_append] at impossible
  cases impossible

theorem name_eq_of_accessors {property other : PropertyDef} {method second : MethodDef}
    (same : second.name = method.name) (accessor : property.HasAccessor method)
    (accessorToo : other.HasAccessor second) : other.name = property.name := by
  rcases accessor with ⟨-, -, ⟨named, -⟩ | ⟨named, -⟩⟩ <;>
    rcases accessorToo with ⟨-, -, ⟨namedToo, -⟩ | ⟨namedToo, -⟩⟩ <;> rw [named, namedToo] at same
  · exact (String.append_right_inj _).mp same
  · exact absurd same.symm (reader_ne_writer _ _)
  · exact absurd same (reader_ne_writer _ _)
  · exact (String.append_right_inj _).mp same

/-- Nameable members of one name are one member, so they have one visibility. -/
theorem visibility_eq_of_nameable (conventional : Conventional system type extensions) {name : String}
    {first second : Visibility} (one : (name, first) ∈ nameables system type)
    (two : (name, second) ∈ nameables system type) : first = second :=
  (Prod.mk.inj (List.inj_on_of_nodup_map conventional.distinct one two rfl)).2

theorem mem_nameables_of_plain {property : PropertyDef} (listed : property ∈ (system.definition type).properties)
    (plain : property.isIndexer = false) : (property.name, property.visibility) ∈ nameables system type := by
  refine List.mem_append_right _ (List.mem_append_right _ (List.mem_map.mpr ⟨property, ?_, rfl⟩))
  exact List.mem_filter.mpr ⟨listed, by rw [plain]; rfl⟩

/-- A method with the name of an accessor is an accessor too, and it is as visible. -/
theorem accessor_of_same_name (conventional : Conventional system type extensions) {method other : MethodDef}
    (declared : method ∈ (system.definition type).methods) (declaredToo : other ∈ (system.definition type).methods)
    (same : other.name = method.name) {kind : MemberKind} {name : String}
    (role : roleOf system method = .accessor kind name) :
    roleOf system other ≠ .grouped ∧ other.visibility = method.visibility := by
  rcases exists_plain_of_role conventional declared role with ⟨property, listed, plain, rfl, accessor⟩
  have special : other.isSpecial = true :=
    (conventional.agree method declared other declaredToo same).trans (isSpecial_of_accessor role)
  have opened : Text.opens "get_" other.name = true ∨ Text.opens "set_" other.name = true := by
    rw [same]
    rcases accessor with ⟨-, -, ⟨named, -⟩ | ⟨named, -⟩⟩
    · exact .inl (by rw [named, Text.opens_append]; rfl)
    · exact .inr (by rw [named, Text.opens_append]; rfl)
  rcases conventional.special other declaredToo special with
    ⟨second, listedToo, accessorToo⟩ | ⟨event, -, -, named | named⟩ | ⟨-, noReader, noWriter⟩
  · have sameName := name_eq_of_accessors same accessor accessorToo
    have plainToo : second.isIndexer = false := by
      rw [Bool.eq_false_iff]
      intro indexer
      exact conventional.plain property listed plain
        (sameName.symm.trans (conventional.indexers second listedToo indexer).1)
    rcases (roleOf_of_plain plainToo accessorToo special : ∃ kind, roleOf system _ = _) with ⟨kind, roleToo⟩
    refine ⟨by rw [roleToo]; exact MethodRole.noConfusion, ?_⟩
    rw [accessor.2.1, accessorToo.2.1]
    refine visibility_eq_of_nameable conventional (mem_nameables_of_plain listedToo plainToo) ?_
    rw [sameName]
    exact mem_nameables_of_plain listed plain
  · rw [named, Text.opens_append, Text.opens_append] at opened
    rcases opened with impossible | impossible <;> cases impossible
  · rw [named, Text.opens_append, Text.opens_append] at opened
    rcases opened with impossible | impossible <;> cases impossible
  · rw [noReader, noWriter] at opened
    rcases opened with impossible | impossible <;> cases impossible

/-- The member that a method makes if it is an accessor. -/
def accessorMember? (system : TypeSystem) (method : Method) : Option CatalogMember :=
  match roleOf system method.definition with
  | .accessor kind name => some ⟨name, method.definition.isStatic, kind, .accessor method⟩
  | _ => none

theorem role_of_accessorMember? {method : Method} {member : CatalogMember}
    (made : accessorMember? system method = some member) :
    roleOf system method.definition = .accessor member.kind member.name := by
  rw [accessorMember?] at made
  split at made
  next kind name role =>
    rcases Option.some.inj made with rfl
    exact role
  next => cases made

/-- A walk finds the accessors one by one, as long as no group stands in their way. -/
theorem accessors_foldl {methods : List Method} {walk : MethodWalk}
    (free : ∀ method ∈ methods, (accessorMember? system method).isSome →
      walk.groups.get? (method.definition.name, method.definition.isStatic) = none ∧
      ∀ other ∈ methods, other.definition.name = method.definition.name →
        roleOf system other.definition ≠ .grouped) :
    (methods.foldl (MethodWalk.step system) walk).accessors =
      walk.accessors ++ methods.filterMap (accessorMember? system) := by
  induction methods generalizing walk with
  | nil => simp
  | cons method rest ih =>
      rw [List.foldl_cons, ih]
      · -- The step itself adds the method if it is an accessor.
        have stepped : (walk.step system method).accessors =
            walk.accessors ++ (accessorMember? system method).toList := by
          rw [MethodWalk.step]
          cases made : accessorMember? system method with
          | none =>
              rw [accessorMember?] at made
              split
              · simp
              · split
                next => simp
                next kind name role =>
                  rw [role] at made
                  cases made
                next => simp
          | some member =>
              have absent := (free method List.mem_cons_self (by rw [made]; rfl)).1
              have role := role_of_accessorMember? made
              rw [accessorMember?, role] at made
              rw [FinMap.contains, absent, role]
              rw [← Option.some.inj made]
              rfl
        rw [stepped, List.append_assoc, List.filterMap_cons]
        cases accessorMember? system method <;> rfl
      · intro later listed isAccessor
        rcases free later (List.mem_cons_of_mem _ listed) isAccessor with ⟨absent, others⟩
        refine ⟨?_, fun other listed => others other (List.mem_cons_of_mem _ listed)⟩
        rw [get?_groups_step]
        split
        next same =>
          have sameName := (Prod.mk.inj (of_decide_eq_true same)).1
          rw [absent, groupStep, if_neg (others method List.mem_cons_self sameName)]
        next => exact absent

/-- A walk takes an accessor by the visibility of the accessor. -/
theorem takes_eq_admits (conventional : Conventional system type extensions) {access : MemberAccess}
    {method : Method} (declared : method ∈ system.methods type)
    (isAccessor : (accessorMember? system method).isSome) :
    takes system type access method = access.admits method.definition.visibility := by
  rw [takes]
  split
  next hidden =>
    subst hidden
    rcases Option.isSome_iff_exists.mp isAccessor with ⟨member, made⟩
    have role := role_of_accessorMember? made
    rw [List.contains_eq_mem, Bool.eq_iff_iff, decide_eq_true_eq, isHiddenName_iff]
    constructor
    · rintro ⟨other, declaredToo, seen, same⟩
      rw [← (accessor_of_same_name conventional (definition_mem declared) (definition_mem declaredToo) same role).2,
        seen]
      rfl
    · intro admitted
      refine ⟨method, declared, ?_, rfl⟩
      revert admitted
      cases method.definition.visibility with
      | visible => exact fun impossible => by cases impossible
      | hidden => exact fun _ => rfl
  next => rfl

/-- The accessors that a walk finds are those that it takes by their own visibility. -/
theorem accessors_walkMethods (conventional : Conventional system type extensions) (access : MemberAccess) :
    (walkMethods system type access).accessors =
      (((system.methods type).filter fun method => system.isSupported method.definition).filter fun method =>
        access.admits method.definition.visibility).filterMap (accessorMember? system) := by
  rw [walkMethods, accessors_foldl, List.nil_append]
  · rw [walkedMethods_eq, List.filter_filter, List.filter_filter, List.filterMap_filter, List.filterMap_filter]
    refine List.filterMap_congr fun method declared => ?_
    cases made : accessorMember? system method with
    | none => simp
    | some member => rw [takes_eq_admits conventional declared (by rw [made]; rfl), Bool.and_comm]
  · intro method listed isAccessor
    refine ⟨rfl, fun other listedToo same => ?_⟩
    rcases Option.isSome_iff_exists.mp isAccessor with ⟨member, made⟩
    have declared := definition_mem (mem_methods_of_walked (List.mem_filter.mp listed).1)
    have declaredToo := definition_mem (mem_methods_of_walked (List.mem_filter.mp listedToo).1)
    exact (accessor_of_same_name conventional declared declaredToo same (role_of_accessorMember? made)).1

/-! ## Members by place -/

/-- The members that items make, each with the visibility of its item. -/
def labelled {α : Type} (seen : α → Visibility) (made : α → List CatalogMember) (items : List α) :
    List (Visibility × CatalogMember) :=
  items.flatMap fun item => (made item).map (seen item, ·)

/-- The members of those visibilities that a walk takes. -/
def admitted (access : MemberAccess) (members : List (Visibility × CatalogMember)) : List CatalogMember :=
  (members.filter fun member => access.admits member.1).map Prod.snd

theorem admitted_append (access : MemberAccess) (first second : List (Visibility × CatalogMember)) :
    admitted access (first ++ second) = admitted access first ++ admitted access second := by
  rw [admitted, List.filter_append, List.map_append]
  rfl

theorem admitted_labelled {α : Type} (access : MemberAccess) (seen : α → Visibility)
    (made : α → List CatalogMember) (items : List α) :
    admitted access (labelled seen made items) =
      (items.filter fun item => access.admits (seen item)).flatMap made := by
  induction items with
  | nil => rfl
  | cons item rest ih =>
      have first : admitted access ((made item).map (seen item, ·)) =
          if access.admits (seen item) then made item else [] := by
        cases taken : access.admits (seen item) <;> simp [admitted, List.filter_map, Function.comp_def, taken]
      rw [labelled, List.flatMap_cons, admitted_append, first, List.filter_cons]
      split
      · rw [List.flatMap_cons, ← ih]
        rfl
      · exact ih

/-- The members of a type that are no method groups, each with the visibility that it is walked by. -/
def singles (system : TypeSystem) (type : TypeRef) : List (Visibility × CatalogMember) :=
  labelled (fun entry => entry.2.definition.visibility) (fun entry => fieldMembers entry.1 entry.2)
      ((scriptFields system type .all).filter fun entry => !isConstant entry.2) ++
    labelled EventDef.visibility (fun event => [⟨event.name, event.isStatic, .event, .event event⟩])
      (system.definition type).events ++
    labelled (·.definition.visibility) (fun method => (accessorMember? system method).toList)
      ((system.methods type).filter fun method => system.isSupported method.definition)

theorem scriptFields_eq (access : MemberAccess) :
    scriptFields system type access =
      (scriptFields system type .all).filter fun entry => access.admits entry.2.definition.visibility := by
  simp only [scriptFields, List.filter_map, List.filter_filter]
  congr 1

/-- The members of a walk are the single members that it admits, and the groups that it finds. -/
theorem members_eq_singles (conventional : Conventional system type extensions) (access : MemberAccess) :
    (ofType system type access extensions).members =
      admitted access (singles system type) ++ groupMembers (methodGroups system type access extensions) := by
  have fields : (scriptFields system type access).filter (fun entry => !isConstant entry.2) =
      ((scriptFields system type .all).filter fun entry => !isConstant entry.2).filter fun entry =>
        access.admits entry.2.definition.visibility := by
    rw [scriptFields_eq, List.filter_filter, List.filter_filter]
    exact List.filter_congr fun entry _ => Bool.and_comm _ _
  rw [singles, admitted_append, admitted_append, admitted_labelled, admitted_labelled, admitted_labelled, ← fields,
    ← List.map_eq_flatMap, ← List.filterMap_eq_flatMap_toList, ← accessors_walkMethods conventional]
  rfl

/-- A single member has the name and the visibility of a nameable one. -/
theorem mem_nameables_of_single (conventional : Conventional system type extensions)
    {single : Visibility × CatalogMember} (listed : single ∈ singles system type) :
    (single.2.name, single.1) ∈ nameables system type := by
  simp only [singles, labelled, List.mem_append, List.mem_flatMap, List.mem_map] at listed
  rcases listed with (⟨entry, ofField, member, made, rfl⟩ | ⟨event, ofEvent, member, made, rfl⟩) |
    ⟨method, ofMethod, member, made, rfl⟩
  · have named : member.name = entry.1 := by
      simp only [fieldMembers, List.mem_cons, List.not_mem_nil, or_false] at made
      rcases made with rfl | rfl <;> rfl
    rw [named]
    exact List.mem_append_left _ (List.mem_map_of_mem (List.mem_filter.mp ofField).1)
  · rw [List.mem_singleton.mp made]
    exact List.mem_append_right _ (List.mem_append_left _ (List.mem_map_of_mem ofEvent))
  · have declared := definition_mem (List.mem_filter.mp ofMethod).1
    rcases exists_plain_of_role conventional declared (role_of_accessorMember? (Option.mem_toList.mp made)) with
      ⟨property, known, plain, named, accessor⟩
    rw [← named, accessor.2.1]
    exact mem_nameables_of_plain known plain

theorem kind_of_method_table {kind : MemberKind} {isStatic other : Bool}
    (same : MemberTable.ofMember kind isStatic = .ofMember .method other) : kind = .method ∨ kind = .event := by
  revert same
  cases kind <;> cases isStatic <;> cases other <;> decide

/-- A single member in a table of methods is an event. -/
theorem exists_event_of_single {single : Visibility × CatalogMember} (listed : single ∈ singles system type)
    {isStatic : Bool} {name : String} (place : single.2.place = (.ofMember .method isStatic, name)) :
    ∃ event ∈ (system.definition type).events, event.name = name ∧ event.visibility = single.1 := by
  have kind := kind_of_method_table (Prod.mk.inj place).1
  simp only [singles, labelled, List.mem_append, List.mem_flatMap, List.mem_map] at listed
  rcases listed with (⟨entry, -, member, made, rfl⟩ | ⟨event, ofEvent, member, made, rfl⟩) |
    ⟨method, -, member, made, rfl⟩
  · simp only [fieldMembers, List.mem_cons, List.not_mem_nil, or_false] at made
    rcases made with rfl | rfl <;> rcases kind with impossible | impossible <;> cases impossible
  · rw [List.mem_singleton.mp made] at place
    exact ⟨event, ofEvent, (Prod.mk.inj place).2, rfl⟩
  · have role := role_of_accessorMember? (Option.mem_toList.mp made)
    have accessed := accessedProperty?_of_roleOf role
    rw [accessedProperty?] at accessed
    dsimp only at kind
    rcases kind with isKind | isKind <;> rw [isKind] at accessed <;> grind

theorem filter_singles_eq_nil {place : MemberTable × String}
    (none : ¬∃ single ∈ singles system type, single.2.place = place) :
    ((singles system type).map Prod.snd).filter (fun member => member.place = place) = [] := by
  simp only [List.filter_eq_nil_iff, List.mem_map, decide_eq_true_eq]
  rintro _ ⟨single, listed, rfl⟩ there
  exact none ⟨single, listed, there⟩

/-- At one place a walk takes all single members or none: they have one visibility. -/
theorem filter_admitted (conventional : Conventional system type extensions) (place : MemberTable × String) :
    ∃ seen, (∀ single ∈ singles system type, single.2.place = place → single.1 = seen) ∧ ∀ access,
      (admitted access (singles system type)).filter (fun member => member.place = place) =
        if access.admits seen then
          ((singles system type).map Prod.snd).filter fun member => member.place = place
        else [] := by
  by_cases some : ∃ single ∈ singles system type, single.2.place = place
  · rcases some with ⟨first, present, here⟩
    have same : ∀ single ∈ singles system type, single.2.place = place → single.1 = first.1 := by
      intro single listed there
      have named : single.2.name = first.2.name := (Prod.mk.inj (there.trans here.symm)).2
      refine visibility_eq_of_nameable conventional (mem_nameables_of_single conventional listed) ?_
      rw [named]
      exact mem_nameables_of_single conventional present
    refine ⟨first.1, same, fun access => ?_⟩
    simp only [admitted, List.filter_map, List.filter_filter, Function.comp_def]
    split
    next taken =>
      congr 1
      refine List.filter_congr fun single listed => ?_
      by_cases there : single.2.place = place
      · rw [same single listed there, taken, Bool.and_true]
      · simp [there]
    next left =>
      rw [List.map_eq_nil_iff, List.filter_eq_nil_iff]
      intro single listed wanted
      rw [Bool.and_eq_true, decide_eq_true_eq] at wanted
      rw [same single listed wanted.1] at wanted
      exact left wanted.2
  · refine ⟨.visible, fun single listed there => absurd ⟨single, listed, there⟩ some, fun access => ?_⟩
    have none := filter_singles_eq_nil some
    have without : (admitted access (singles system type)).filter (fun member => member.place = place) = [] :=
      List.eq_nil_of_subset_nil (none ▸ (List.filter_sublist.map Prod.snd).filter _ |>.subset)
    rw [none, without, ite_self]

/-- The member that has a place once all members of a catalog are written: the last that is listed for it. -/
def serving? (catalog : Catalog) (place : MemberTable × String) : Option CatalogMember :=
  (catalog.members.filter fun member => member.place = place).getLast?

/-- Where the walk over all members has no group member, the walk over visible ones has none. -/
theorem groupMembers_visibleOnly_eq_nil {place : MemberTable × String}
    (none : (groupMembers (methodGroups system type .all extensions)).filter (fun member => member.place = place) =
      []) :
    (groupMembers (methodGroups system type .visibleOnly extensions)).filter (fun member => member.place = place) =
      [] := by
  rw [List.filter_eq_nil_iff] at none ⊢
  intro member listed here
  rcases exists_group_of_mem listed with ⟨isMethod, ordinary, present⟩
  rcases exists_mem_of_group (isSome_get?_all present) ordinary with ⟨whole, among, isMethodToo, named, isStatic⟩
  refine none whole among (decide_eq_true ?_)
  rw [CatalogMember.place, isMethodToo, named, isStatic, ← of_decide_eq_true here, CatalogMember.place, isMethod]

/-- No group has the place of a single member that only the walk over hidden members takes. -/
theorem groupMembers_eq_nil_of_hidden (conventional : Conventional system type extensions)
    {single : Visibility × CatalogMember} (listed : single ∈ singles system type) (hidden : single.1 = .hidden) :
    (groupMembers (methodGroups system type .all extensions)).filter
      (fun member => member.place = single.2.place) = [] := by
  refine List.filter_eq_nil_iff.mpr fun member among here => ?_
  rcases exists_group_of_mem among with ⟨isMethod, -, present⟩
  have place : single.2.place = (.ofMember .method member.isStatic, member.name) := by
    rw [← of_decide_eq_true here, CatalogMember.place, isMethod]
  rcases exists_event_of_single listed place with ⟨event, declared, named, seen⟩
  rcases exists_method_of_group present with ⟨method, declaredToo, same⟩ | ⟨method, joins, same⟩
  · exact conventional.events event declared _ (definition_mem declaredToo) (same.trans named.symm)
  · exact conventional.hiddenEvents event declared (seen.trans hidden) method joins (same.trans named.symm)

/--
The members of a walk over hidden members, written over those of a walk over visible
members, are at every place those of a walk over all members.
-/
theorem serving?_addedLater (conventional : Conventional system type extensions) (place : MemberTable × String) :
    ((ofType system type .hiddenOnly extensions).serving? place).or
        ((ofType system type .visibleOnly extensions).serving? place) =
      (ofType system type .all extensions).serving? place := by
  rcases filter_admitted conventional place with ⟨seen, visibility, taken⟩
  simp only [serving?, members_eq_singles conventional, List.filter_append, List.getLast?_append, taken]
  by_cases hidden : place.2 ∈ hiddenNames system type
  · have groups : (groupMembers (methodGroups system type .hiddenOnly extensions)).filter
        (fun member => member.place = place) =
        (groupMembers (methodGroups system type .all extensions)).filter fun member => member.place = place := by
      rw [filter_groupMembers, named_hiddenOnly hidden, ← filter_groupMembers]
    rw [groups]
    cases whole : (groupMembers (methodGroups system type .all extensions)).filter
        fun member => member.place = place with
    | cons first rest => rw [List.getLast?_cons, Option.some_or, Option.some_or, Option.some_or]
    | nil =>
        rw [groupMembers_visibleOnly_eq_nil whole]
        cases seen <;> simp [MemberAccess.admits]
  · have none : (groupMembers (methodGroups system type .hiddenOnly extensions)).filter
        (fun member => member.place = place) = [] := by
      rw [filter_groupMembers, named_hiddenOnly_eq_empty hidden]
      rfl
    have groups : (groupMembers (methodGroups system type .visibleOnly extensions)).filter
        (fun member => member.place = place) =
        (groupMembers (methodGroups system type .all extensions)).filter fun member => member.place = place := by
      rw [filter_groupMembers, named_visibleOnly hidden, ← filter_groupMembers]
    rw [none, groups]
    cases seen with
    | visible => simp [MemberAccess.admits]
    | hidden =>
        -- The single members come last here and first in one walk, so they must not meet a group.
        by_cases some : ∃ single ∈ singles system type, single.2.place = place
        · rcases some with ⟨single, listed, rfl⟩
          rw [groupMembers_eq_nil_of_hidden conventional listed (visibility single listed rfl)]
          simp [MemberAccess.admits]
        · simp [MemberAccess.admits, filter_singles_eq_nil some]

end Catalog

end ScriptBridge
