import ScriptBridge.Proofs.Tables.Declared

/-!
# Whole method groups

What a walk finds for one name and staticness depends only on the methods that have
them, and it is what a catalog lists under that name, if it is no operator.
-/

namespace ScriptBridge.Catalog

variable {system : TypeSystem} {type : TypeRef}

def hasKey (key : String × Bool) (method : Method) : Bool :=
  (method.definition.name, method.definition.isStatic) = key

/-- What a walk makes of a group by taking one more method of its name and staticness. -/
def groupStep (system : TypeSystem) (group : Option (List Method)) (method : Method) : Option (List Method) :=
  match group with
  | some methods => some (methods ++ [method])
  | none => if roleOf system method.definition = .grouped then some [method] else none

def joinStep (group : Option (List Method)) (method : Method) : Option (List Method) :=
  some (group.getD [] ++ [method])

theorem get?_join (groups : MethodGroups) (key other : String × Bool) (method : Method) :
    (join groups other method).get? key =
      if other = key then joinStep (groups.get? key) method else groups.get? key := by
  rw [join, FinMap.get?_insert]
  by_cases same : other = key
  · rw [if_pos same.symm, if_pos same, same, joinStep]
  · rw [if_neg (Ne.symm same), if_neg same]

theorem get?_groups_step (walk : MethodWalk) (method : Method) (key : String × Bool) :
    (walk.step system method).groups.get? key =
      if hasKey key method then groupStep system (walk.groups.get? key) method else walk.groups.get? key := by
  by_cases same : (method.definition.name, method.definition.isStatic) = key
  · subst same
    simp only [MethodWalk.step, hasKey, FinMap.contains, decide_true, if_true]
    rcases Option.eq_none_or_eq_some (walk.groups.get? (method.definition.name, method.definition.isStatic)) with
      absent | ⟨methods, found⟩
    · cases role : roleOf system method.definition <;> simp [get?_join, joinStep, groupStep, absent, role]
    · simp [get?_join, joinStep, groupStep, found]
  · simp only [MethodWalk.step, hasKey, same, decide_false, Bool.false_eq_true, if_false]
    split
    · rw [get?_join, if_neg same]
    · split
      · rfl
      · rfl
      · rw [get?_join, if_neg same]

theorem get?_groups_foldl (methods : List Method) (walk : MethodWalk) (key : String × Bool) :
    (methods.foldl (MethodWalk.step system) walk).groups.get? key =
      (methods.filter (hasKey key)).foldl (groupStep system) (walk.groups.get? key) := by
  induction methods generalizing walk with
  | nil => rfl
  | cons method rest ih =>
      rw [List.foldl_cons, ih, get?_groups_step, List.filter_cons]
      split <;> rfl

theorem get?_foldl_join (methods : List Method) (groups : MethodGroups) (key : String × Bool) :
    (methods.foldl (fun groups method => join groups (method.definition.name, false) method) groups).get? key =
      (methods.filter fun method => (method.definition.name, false) = key).foldl joinStep (groups.get? key) := by
  induction methods generalizing groups with
  | nil => rfl
  | cons method rest ih =>
      rw [List.foldl_cons, ih, get?_join, List.filter_cons]
      simp only [decide_eq_true_eq]
      split <;> rfl

def groupMember (name : String) (isStatic : Bool) (methods : List Method) : CatalogMember :=
  ⟨name, isStatic, .method, .methods methods⟩

theorem isSpecial_of_accessor {method : MethodDef} {kind : MemberKind} {name : String}
    (role : roleOf system method = .accessor kind name) : method.isSpecial = true := by
  grind [roleOf]

theorem kind_ne_of_roleOf {method : MethodDef} {kind : MemberKind} {name : String}
    (role : roleOf system method = .accessor kind name) : kind ≠ .method := by
  have accessed := accessedProperty?_of_roleOf role
  rw [accessedProperty?] at accessed
  rintro rfl
  grind

/-- An accessor that a walk finds is that of a method of the type with this role. -/
theorem exists_role_of_mem_accessors {access : MemberAccess} {member : CatalogMember}
    (listed : member ∈ (walkMethods system type access).accessors) :
    ∃ method ∈ system.methods type, method.definition.isStatic = member.isStatic ∧
      roleOf system method.definition = .accessor member.kind member.name := by
  revert member
  rw [walkMethods]
  refine List.foldlRecOn
    (motive := fun walk : MethodWalk => ∀ {member}, member ∈ walk.accessors →
      ∃ method ∈ system.methods type, method.definition.isStatic = member.isStatic ∧
        roleOf system method.definition = .accessor member.kind member.name)
    _ _ (fun listed => absurd listed List.not_mem_nil) fun walk known method walked member listed => ?_
  rw [MethodWalk.step] at listed
  split at listed
  · exact known listed
  · split at listed
    next => exact known listed
    next role =>
      rcases List.mem_append.mp listed with older | added
      · exact known older
      · rw [List.mem_singleton.mp added]
        exact ⟨method, mem_methods_of_walked (List.mem_filter.mp walked).1, rfl, role⟩
    next => exact known listed

theorem kind_ne_of_mem_accessors {access : MemberAccess} {member : CatalogMember}
    (listed : member ∈ (walkMethods system type access).accessors) : member.kind ≠ .method :=
  (exists_role_of_mem_accessors listed).elim fun _ found => kind_ne_of_roleOf found.2.2

/-- The members of a catalog before its method groups are no method groups. -/
theorem members_eq (system : TypeSystem) (type : TypeRef) (access : MemberAccess)
    (extensions : Option ExtensionMap) :
    ∃ others, (ofType system type access extensions).members =
        others ++ groupMembers (methodGroups system type access extensions) ∧
      ∀ member ∈ others, member.kind ≠ .method := by
  refine ⟨_, rfl, fun member listed => ?_⟩
  simp only [List.mem_append] at listed
  rcases listed with (ofField | ofEvent) | ofAccessor
  · rcases List.mem_flatMap.mp ofField with ⟨entry, -, made⟩
    simp only [fieldMembers, List.mem_cons, List.not_mem_nil, or_false] at made
    rcases made with rfl | rfl <;> intro same <;> cases same
  · rcases List.mem_map.mp ofEvent with ⟨event, -, rfl⟩
    intro same
    cases same
  · exact kind_ne_of_mem_accessors ofAccessor

theorem find?_groupMembers (groups : MethodGroups) (name : String) (isStatic : Bool) :
    ((groupMembers groups).find? fun member =>
        member.kind = .method && member.isStatic == isStatic && member.name == name) =
      if (Operator.ofMethodName? name).isNone then
        (groups.get? (name, isStatic)).map (groupMember name isStatic)
      else none := by
  rw [groupMembers, FinMap.get?]
  induction groups.entries with
  | nil => simp [FinMap.lookup]
  | cons entry rest ih =>
      rcases entry with ⟨⟨other, otherStatic⟩, methods⟩
      simp only [List.filter_cons, FinMap.lookup]
      by_cases same : (other, otherStatic) = (name, isStatic)
      · rcases Prod.mk.inj same with ⟨rfl, rfl⟩
        cases kept : (Operator.ofMethodName? other).isNone with
        | false =>
            rw [kept] at ih
            simpa using ih
        | true => simp [groupMember]
      · have different :
            (decide (MemberKind.method = .method) && otherStatic == isStatic && other == name) = false := by
          rw [Bool.eq_false_iff]
          intro matched
          simp only [Bool.and_eq_true, beq_iff_eq] at matched
          exact same (by rw [matched.1.2, matched.2])
        rw [if_neg same]
        split
        · rw [List.map_cons, List.find?_cons_of_neg (by rw [different]; exact Bool.false_ne_true)]
          exact ih
        · exact ih

/-- The methods that a catalog lists by a name are the group that its walk found. -/
theorem find?_method (access : MemberAccess) (extensions : Option ExtensionMap) (name : String)
    (isStatic : Bool) :
    (ofType system type access extensions).find? .method name isStatic =
      if (Operator.ofMethodName? name).isNone then
        ((methodGroups system type access extensions).get? (name, isStatic)).map (groupMember name isStatic)
      else none := by
  rcases members_eq system type access extensions with ⟨others, members, noMethod⟩
  have none : (others.find? fun member =>
      member.kind = .method && member.isStatic == isStatic && member.name == name) = none := by
    refine List.find?_eq_none.mpr fun member listed matched => ?_
    simp only [Bool.and_eq_true, decide_eq_true_eq] at matched
    exact noMethod member listed matched.1.1
  rw [find?, members, List.find?_append, none, Option.none_or, find?_groupMembers]

end ScriptBridge.Catalog
