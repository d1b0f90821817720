import ScriptBridge.Proofs.Tables.Cataloged
import ScriptBridge.Proofs.Tables.Named

/-!
# What method groups consist of

The group of a name and staticness has the methods of the type that a walk offers, from
the first on that opens a group, and after them the extension methods of the name. A
call can choose those of them whose generic parameters all have a constraint.
-/

namespace ScriptBridge

/-- Every generic parameter of the method has a constraint, so that there is a type to replace it. -/
def MethodDef.Constrained (method : MethodDef) : Prop := ∀ generic ∈ method.generics, generic.constraints ≠ []

theorem MethodDef.isOk_firstConstraints (name : String) (index : Nat) (generics : List GenericParameter) :
    (firstConstraints name index generics).isOk = true ↔ ∀ generic ∈ generics, generic.constraints ≠ [] := by
  induction generics generalizing index with
  | nil => simp [firstConstraints, Except.isOk, Except.toBool]
  | cons generic rest ih =>
      cases constraints : generic.constraints with
      | nil => simp [firstConstraints, constraints, Except.isOk, Except.toBool]
      | cons first others =>
          rw [List.forall_mem_cons, constraints, ← ih (index + 1)]
          cases chosen : firstConstraints name (index + 1) rest <;>
            simp [firstConstraints, constraints, chosen, bind, Except.bind, pure, Except.pure, Except.isOk, Except.toBool]

namespace OverloadGroup

variable {system : TypeSystem}

theorem isSome_candidate?_iff {shape : CallShape} {method : Method} :
    (candidate? system shape method).isSome = true ↔
      system.isSupported method.definition = true ∧ method.definition.Constrained := by
  have specializes := MethodDef.isOk_firstConstraints method.definition.name 0 method.definition.generics
  rw [MethodDef.Constrained, ← specializes, candidate?]
  cases supported : system.isSupported method.definition with
  | false => simp
  | true =>
      cases chosen : MethodDef.firstConstraints method.definition.name 0 method.definition.generics <;>
        simp [MethodDef.specialize, chosen, bind, Except.bind, pure, Except.pure, Except.toOption, Except.isOk,
          Except.toBool]

/-- A group has a candidate if one of its methods is supported and has a constraint for every generic parameter. -/
theorem candidates_ne_nil_iff {owner : TypeRef} {name : String} {shape : CallShape} {methods : List Method} :
    (ofMethods system owner name shape methods).candidates ≠ [] ↔
      ∃ method ∈ methods, system.isSupported method.definition = true ∧ method.definition.Constrained := by
  simp only [ofMethods, ne_eq, List.filterMap_eq_nil_iff, not_forall, ← @isSome_candidate?_iff system shape,
    Option.isSome_iff_ne_none, exists_prop]

end OverloadGroup

namespace Catalog

variable {system : TypeSystem} {type : TypeRef} {access : MemberAccess} {extensions : Option ExtensionMap}

/-- The methods as a group, unless there are none. -/
def group? : List Method → Option (List Method)
  | [] => none
  | methods => some methods

@[simp]
theorem group?_eq_some_iff {methods group : List Method} :
    group? methods = some group ↔ methods = group ∧ group ≠ [] := by
  cases methods <;> simp +contextual [group?, eq_comm]

@[simp]
theorem group?_eq_none_iff {methods : List Method} : group? methods = none ↔ methods = [] := by
  cases methods <;> simp [group?]

theorem foldl_groupStep_some (methods group : List Method) :
    methods.foldl (groupStep system) (some group) = some (group ++ methods) := by
  induction methods generalizing group with
  | nil => simp
  | cons method rest ih => rw [List.foldl_cons, groupStep, ih, List.append_assoc, List.singleton_append]

/-- A walk takes the methods of a name from the first on that opens a group. -/
theorem foldl_groupStep_none (methods : List Method) :
    methods.foldl (groupStep system) none =
      group? (methods.dropWhile fun method => roleOf system method.definition ≠ .grouped) := by
  induction methods with
  | nil => rfl
  | cons method rest ih =>
      by_cases opens : roleOf system method.definition = .grouped
      · simp only [List.foldl_cons, groupStep, opens, if_true, foldl_groupStep_some]
        simp [opens, group?]
      · simp only [List.foldl_cons, groupStep, opens, if_false, ih]
        simp [opens]

theorem foldl_joinStep (methods group : List Method) :
    methods.foldl joinStep (group? group) = group? (group ++ methods) := by
  induction methods generalizing group with
  | nil => simp
  | cons method rest ih =>
      have joined : joinStep (group? group) method = group? (group ++ [method]) := by
        cases group <;> rfl
      rw [List.foldl_cons, joined, ih, List.append_assoc, List.singleton_append]

/-- The methods of a type in the group of a name and staticness. -/
def ownMethods (system : TypeSystem) (type : TypeRef) (access : MemberAccess) (key : String × Bool) : List Method :=
  ((offered system type access).filter (hasKey key)).dropWhile fun method =>
    roleOf system method.definition ≠ .grouped

/-- The extension methods in the group of a name and staticness. -/
def joinedMethods (system : TypeSystem) (type : TypeRef) (access : MemberAccess) (extensions : Option ExtensionMap)
    (key : String × Bool) : List Method :=
  (joining system type access extensions).filter fun method => (method.definition.name, false) = key

/-- A group has the methods of the type and then the extension methods. -/
theorem get?_methodGroups (key : String × Bool) :
    (methodGroups system type access extensions).get? key =
      group? (ownMethods system type access key ++ joinedMethods system type access extensions key) := by
  have fold := get?_foldl_join (joining system type access extensions) (walkMethods system type access).groups key
  rw [joining] at fold
  rw [methodGroups, fold, walkMethods, get?_groups_foldl, FinMap.get?_empty, foldl_groupStep_none, foldl_joinStep]
  rfl

theorem nodup_groups_step {walk : MethodWalk} (distinct : walk.groups.keys.Nodup) (method : Method) :
    (walk.step system method).groups.keys.Nodup := by
  rw [MethodWalk.step]
  split
  · exact FinMap.nodup_keys_insert distinct _ _
  · split
    · exact distinct
    · exact distinct
    · exact FinMap.nodup_keys_insert distinct _ _

theorem nodup_methodGroups (system : TypeSystem) (type : TypeRef) (access : MemberAccess)
    (extensions : Option ExtensionMap) : (methodGroups system type access extensions).keys.Nodup := by
  refine List.foldlRecOn (motive := fun groups : MethodGroups => groups.keys.Nodup) _ _ ?_
    fun groups distinct method _ => FinMap.nodup_keys_insert distinct _ _
  exact List.foldlRecOn (motive := fun walk : MethodWalk => walk.groups.keys.Nodup) _ _ List.nodup_nil
    fun walk distinct method _ => nodup_groups_step distinct method

theorem kind_of_place {member : CatalogMember} {isStatic : Bool} {name : String}
    (there : member.place = (.ofMember .method isStatic, name)) :
    (member.kind = .method ∨ member.kind = .event) ∧ member.isStatic = isStatic ∧ member.name = name := by
  rcases member with ⟨ownName, ownStatic, kind, source⟩
  rcases Prod.mk.inj there with ⟨table, same⟩
  refine ⟨?_, ?_, same⟩
  · cases kind <;> cases ownStatic <;> cases isStatic <;> simp [MemberTable.ofMember] at table ⊢
  · cases kind <;> cases ownStatic <;> cases isStatic <;> simp [MemberTable.ofMember] at table ⊢

theorem kind_ne_event_of_mem_accessors {member : CatalogMember}
    (listed : member ∈ (walkMethods system type access).accessors) : member.kind ≠ .event := by
  rcases exists_role_of_mem_accessors listed with ⟨method, -, -, role⟩
  have accessed := accessedProperty?_of_roleOf role
  intro isEvent
  rw [accessedProperty?, isEvent] at accessed
  grind

/-- The methods of a type in a group are supported. -/
theorem isSupported_of_mem_ownMethods {key : String × Bool} {method : Method}
    (own : method ∈ ownMethods system type access key) : system.isSupported method.definition = true :=
  (List.mem_filter.mp (List.mem_filter.mp ((List.dropWhile_sublist _).mem own)).1).2

/-- A group has a candidate if a method of the type in it, or an extension method that is supported, is constrained. -/
theorem candidates_group_ne_nil_iff {key : String × Bool} {name : String} {shape : CallShape} :
    (OverloadGroup.ofMethods system type name shape
        (ownMethods system type access key ++ joinedMethods system type access extensions key)).candidates ≠ [] ↔
      (∃ method ∈ ownMethods system type access key, method.definition.Constrained) ∨
        ∃ method ∈ joinedMethods system type access extensions key,
          system.isSupported method.definition = true ∧ method.definition.Constrained := by
  rw [OverloadGroup.candidates_ne_nil_iff]
  constructor
  · rintro ⟨method, listed, supported, constrained⟩
    exact (List.mem_append.mp listed).imp (fun own => ⟨method, own, constrained⟩)
      fun joined => ⟨method, joined, supported, constrained⟩
  · rintro (⟨method, own, constrained⟩ | ⟨method, joined, supported, constrained⟩)
    · exact ⟨method, List.mem_append_left _ own, isSupported_of_mem_ownMethods own, constrained⟩
    · exact ⟨method, List.mem_append_right _ joined, supported, constrained⟩

/-- A member of a group is the whole group of its name and staticness. -/
theorem eq_groupMember_of_mem {member : CatalogMember}
    (listed : member ∈ groupMembers (methodGroups system type access extensions)) :
    let methods := ownMethods system type access (member.name, member.isStatic) ++
      joinedMethods system type access extensions (member.name, member.isStatic)
    methods ≠ [] ∧ member = groupMember member.name member.isStatic methods := by
  rcases List.mem_map.mp listed with ⟨⟨⟨name, isStatic⟩, methods⟩, present, rfl⟩
  rcases List.mem_filter.mp present with ⟨present, -⟩
  have found := FinMap.get?_of_mem (nodup_methodGroups system type access extensions) present
  rcases group?_eq_some_iff.mp ((get?_methodGroups _).symm.trans found) with ⟨same, some⟩
  exact ⟨same ▸ some, by rw [same, groupMember]⟩

/-- What a catalog lists among methods and events is that of an event which the walk takes, or a whole method group. -/
theorem eventMember_or_group_of_mem {member : CatalogMember}
    (listed : member ∈ (ofType system type access extensions).members) {isStatic : Bool} {name : String}
    (there : member.place = (.ofMember .method isStatic, name)) :
    (∃ event ∈ (system.definition type).events, access.admits event.visibility = true ∧
      member = ⟨event.name, event.isStatic, .event, .event event⟩) ∨
    let methods := ownMethods system type access (name, isStatic) ++
      joinedMethods system type access extensions (name, isStatic)
    methods ≠ [] ∧ member = groupMember name isStatic methods := by
  rcases kind_of_place there with ⟨kind, rfl, rfl⟩
  simp only [ofType, List.mem_append] at listed
  rcases listed with ((ofField | ofEvent) | ofAccessor) | ofGroup
  · rcases List.mem_flatMap.mp ofField with ⟨entry, -, made⟩
    simp only [fieldMembers, List.mem_cons, List.not_mem_nil, or_false] at made
    rcases made with rfl | rfl <;> simp at kind
  · rcases List.mem_map.mp ofEvent with ⟨event, taken, rfl⟩
    rcases List.mem_filter.mp taken with ⟨declared, admitted⟩
    exact .inl ⟨event, declared, admitted, rfl⟩
  · exact (kind.elim (kind_ne_of_mem_accessors ofAccessor) (kind_ne_event_of_mem_accessors ofAccessor)).elim
  · exact .inr (eq_groupMember_of_mem ofGroup)

theorem event_or_group_of_mem {member : CatalogMember}
    (listed : member ∈ (ofType system type access extensions).members) {isStatic : Bool} {name : String}
    (there : member.place = (.ofMember .method isStatic, name)) :
    (∃ event ∈ (system.definition type).events, access.admits event.visibility = true ∧ event.name = name ∧
      event.isStatic = isStatic) ∨
    let methods := ownMethods system type access (name, isStatic) ++
      joinedMethods system type access extensions (name, isStatic)
    methods ≠ [] ∧ member = groupMember name isStatic methods := by
  refine (eventMember_or_group_of_mem listed there).imp_left ?_
  rintro ⟨event, declared, admitted, rfl⟩
  rcases kind_of_place there with ⟨-, sameStatic, sameName⟩
  exact ⟨event, declared, admitted, sameName, sameStatic⟩

end Catalog

end ScriptBridge
