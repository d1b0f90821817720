import ScriptBridge.Proofs.Maps
import ScriptBridge.Proofs.Steps.Registering
import ScriptBridge.Proofs.Tables.Overloads

/-!
# Walks name by name

The method groups of one name depend only on the methods and extension methods of
that name. So the groups of a name that some hidden method has are the same in a
walk over hidden members as in a walk over all members, in the same order; those of
any other name are the same in a walk over visible members, and a walk over hidden
members has none of them.
-/

namespace ScriptBridge

namespace Catalog

variable {system : TypeSystem} {type : TypeRef} {name : String} {extensions : Option ExtensionMap}

/-- The method groups of one name. -/
def named (groups : MethodGroups) (name : String) : MethodGroups := groups.restrict fun key => key.1 = name

theorem get?_named (groups : MethodGroups) {key : String × Bool} (same : key.1 = name) :
    (named groups name).get? key = groups.get? key :=
  FinMap.get?_restrict groups (decide_eq_true same)

/-- What one step of a walk does to the groups; the accessors do not matter for it. -/
def groupsStep (system : TypeSystem) (groups : MethodGroups) (method : Method) : MethodGroups :=
  (MethodWalk.step system ⟨[], groups⟩ method).groups

theorem groups_step (walk : MethodWalk) (method : Method) :
    (walk.step system method).groups = groupsStep system walk.groups method := by
  simp only [groupsStep, MethodWalk.step]
  split
  · rfl
  · split <;> rfl

theorem groups_foldl (methods : List Method) (walk : MethodWalk) :
    (methods.foldl (MethodWalk.step system) walk).groups = methods.foldl (groupsStep system) walk.groups := by
  induction methods generalizing walk with
  | nil => rfl
  | cons method rest ih => rw [List.foldl_cons, List.foldl_cons, ih, groups_step]

theorem named_join (groups : MethodGroups) (key : String × Bool) (method : Method) :
    named (join groups key method) name =
      if key.1 = name then join (named groups name) key method else named groups name := by
  rw [named, join, FinMap.restrict_insert]
  by_cases same : key.1 = name
  · rw [if_pos (decide_eq_true same), if_pos same, join, get?_named _ same, named]
  · rw [if_neg (by simp [same]), if_neg same, named]

theorem named_groupsStep (groups : MethodGroups) (method : Method) :
    named (groupsStep system groups method) name =
      if method.definition.name = name then groupsStep system (named groups name) method
      else named groups name := by
  simp only [groupsStep, MethodWalk.step]
  by_cases same : method.definition.name = name
  · have present : (named groups name).contains (method.definition.name, method.definition.isStatic) =
        groups.contains (method.definition.name, method.definition.isStatic) := by
      rw [FinMap.contains, FinMap.contains, get?_named _ same]
    rw [if_pos same, present]
    split
    · rw [named_join, if_pos same]
    · split
      · rfl
      · rfl
      · rw [named_join, if_pos same]
  · rw [if_neg same]
    split
    · rw [named_join, if_neg same]
    · split
      · rfl
      · rfl
      · rw [named_join, if_neg same]

theorem named_foldl_groupsStep (methods : List Method) (groups : MethodGroups) :
    named (methods.foldl (groupsStep system) groups) name =
      (methods.filter fun method => method.definition.name = name).foldl (groupsStep system) (named groups name) := by
  induction methods generalizing groups with
  | nil => rfl
  | cons method rest ih =>
      rw [List.foldl_cons, ih, named_groupsStep, List.filter_cons]
      simp only [decide_eq_true_eq]
      split <;> rfl

theorem named_foldl_join (methods : List Method) (groups : MethodGroups) :
    named (methods.foldl (fun groups method => join groups (method.definition.name, false) method) groups) name =
      (methods.filter fun method => method.definition.name = name).foldl
        (fun groups method => join groups (method.definition.name, false) method) (named groups name) := by
  induction methods generalizing groups with
  | nil => rfl
  | cons method rest ih =>
      rw [List.foldl_cons, ih, named_join, List.filter_cons]
      simp only [decide_eq_true_eq]
      split <;> rfl

/-- The methods that a walk can take up, extension methods apart. -/
def offered (system : TypeSystem) (type : TypeRef) (access : MemberAccess) : List Method :=
  (walkedMethods system type access).filter fun method => system.isSupported method.definition

def joining (system : TypeSystem) (type : TypeRef) (access : MemberAccess) (extensions : Option ExtensionMap) :
    List Method :=
  extensions.elim [] (joiningExtensions system type access)

/-- The groups of a name are made from the methods and the extension methods of the name. -/
theorem named_methodGroups (access : MemberAccess) :
    named (methodGroups system type access extensions) name =
      ((joining system type access extensions).filter fun method => method.definition.name = name).foldl
        (fun groups method => join groups (method.definition.name, false) method)
        (((offered system type access).filter fun method => method.definition.name = name).foldl
          (groupsStep system) .empty) := by
  rw [methodGroups, named_foldl_join, walkMethods, groups_foldl, named_foldl_groupsStep]
  rfl

theorem isHiddenName_iff : name ∈ hiddenNames system type ↔
    ∃ method ∈ system.methods type, method.definition.visibility = .hidden ∧ method.definition.name = name := by
  simp only [hiddenNames, List.mem_map, List.mem_filter, decide_eq_true_eq, and_assoc]

theorem visibility_eq_visible {method : Method} (declared : method ∈ system.methods type)
    (shown : method.definition.name ∉ hiddenNames system type) : method.definition.visibility = .visible := by
  cases seen : method.definition.visibility with
  | visible => rfl
  | hidden => exact absurd (isHiddenName_iff.mpr ⟨method, declared, seen, rfl⟩) shown

/-- Whether a walk takes a method. -/
def takes (system : TypeSystem) (type : TypeRef) (access : MemberAccess) (method : Method) : Bool :=
  if access = .hiddenOnly then (hiddenNames system type).contains method.definition.name
  else access.admits method.definition.visibility

theorem walkedMethods_eq (access : MemberAccess) :
    walkedMethods system type access = (system.methods type).filter (takes system type access) := by
  rw [walkedMethods]
  by_cases hidden : access = .hiddenOnly
  · rw [if_pos hidden]
    exact List.filter_congr fun method _ => by rw [takes, if_pos hidden]
  · rw [if_neg hidden]
    exact List.filter_congr fun method _ => by rw [takes, if_neg hidden]

/-- Two walks that take the same methods of a name can take up the same ones. -/
theorem filter_offered_eq {access other : MemberAccess}
    (same : ∀ method ∈ system.methods type, method.definition.name = name →
      takes system type access method = takes system type other method) :
    (offered system type access).filter (fun method => method.definition.name = name) =
      (offered system type other).filter fun method => method.definition.name = name := by
  simp only [offered, walkedMethods_eq, List.filter_filter]
  refine List.filter_congr fun method declared => ?_
  by_cases wanted : method.definition.name = name
  · rw [same method declared wanted]
  · simp [wanted]

/-- The walk over hidden members has the groups of a name of a hidden method, as the walk over all has them. -/
theorem named_hiddenOnly (hidden : name ∈ hiddenNames system type) :
    named (methodGroups system type .hiddenOnly extensions) name =
      named (methodGroups system type .all extensions) name := by
  have own : (offered system type .hiddenOnly).filter (fun method => method.definition.name = name) =
      (offered system type .all).filter fun method => method.definition.name = name := by
    refine filter_offered_eq fun method declared wanted => ?_
    simp [takes, wanted, hidden, MemberAccess.admits]
  have joined : (joining system type .hiddenOnly extensions).filter (fun method => method.definition.name = name) =
      (joining system type .all extensions).filter fun method => method.definition.name = name := by
    cases extensions with
    | none => rfl
    | some map =>
        simp only [joining, Option.elim, joiningExtensions, List.filter_filter]
        refine List.filter_congr fun method _ => ?_
        by_cases wanted : method.definition.name = name
        · simp [wanted, hidden, MemberAccess.admits]
        · simp [wanted]
  rw [named_methodGroups, named_methodGroups, own, joined]

theorem get?_methodGroups_hiddenOnly (hidden : name ∈ hiddenNames system type) (isStatic : Bool) :
    (methodGroups system type .hiddenOnly extensions).get? (name, isStatic) =
      (methodGroups system type .all extensions).get? (name, isStatic) := by
  have same : ((name, isStatic) : String × Bool).1 = name := rfl
  rw [← get?_named _ same, named_hiddenOnly hidden, get?_named _ same]

/-- By a name that some hidden method has, the hidden members list the methods that all members list. -/
theorem find?_hiddenOnly (hidden : name ∈ hiddenNames system type) (isStatic : Bool)
    (extensions : Option ExtensionMap) :
    (ofType system type .hiddenOnly extensions).find? .method name isStatic =
      (ofType system type .all extensions).find? .method name isStatic := by
  rw [find?_method, find?_method, get?_methodGroups_hiddenOnly hidden]

/-- The walk over hidden members has no group of a name that only visible methods have. -/
theorem named_hiddenOnly_eq_empty (shown : name ∉ hiddenNames system type) :
    named (methodGroups system type .hiddenOnly extensions) name = .empty := by
  have own : (offered system type .hiddenOnly).filter (fun method => method.definition.name = name) = [] := by
    refine List.filter_eq_nil_iff.mpr fun method taken wanted => ?_
    rw [offered, walkedMethods_eq, List.mem_filter, List.mem_filter, takes, if_pos rfl, List.contains_eq_mem,
      decide_eq_true_eq, of_decide_eq_true wanted] at taken
    exact shown taken.1.2
  have joined : (joining system type .hiddenOnly extensions).filter (fun method => method.definition.name = name) =
      [] := by
    cases extensions with
    | none => rfl
    | some map =>
        refine List.filter_eq_nil_iff.mpr fun method taken wanted => shown ?_
        simp only [joining, Option.elim, joiningExtensions, List.mem_filter, MemberAccess.admits, Bool.false_or,
          List.contains_eq_mem, decide_eq_true_eq] at taken
        exact of_decide_eq_true wanted ▸ taken.2
  rw [named_methodGroups, own, joined]
  rfl

/-- The walk over visible members has the groups of a name that only visible methods have. -/
theorem named_visibleOnly (shown : name ∉ hiddenNames system type) :
    named (methodGroups system type .visibleOnly extensions) name =
      named (methodGroups system type .all extensions) name := by
  have own : (offered system type .visibleOnly).filter (fun method => method.definition.name = name) =
      (offered system type .all).filter fun method => method.definition.name = name := by
    refine filter_offered_eq fun method declared wanted => ?_
    have visible := visibility_eq_visible declared (wanted.symm ▸ shown)
    simp [takes, visible, MemberAccess.admits]
  rw [named_methodGroups, named_methodGroups, own]
  rfl

/-! ## Names that have a group -/

theorem isSome_foldl_groupStep (methods : List Method) (group : Option (List Method)) :
    (methods.foldl (groupStep system) group).isSome ↔
      group.isSome ∨ ∃ method ∈ methods, roleOf system method.definition = .grouped := by
  induction methods generalizing group with
  | nil => simp
  | cons method rest ih =>
      rw [List.foldl_cons, ih]
      cases group with
      | some methods => simp [groupStep]
      | none => by_cases role : roleOf system method.definition = .grouped <;> simp [groupStep, role]

theorem isSome_foldl_joinStep (methods : List Method) (group : Option (List Method)) :
    (methods.foldl joinStep group).isSome ↔ group.isSome ∨ methods ≠ [] := by
  induction methods generalizing group with
  | nil => simp
  | cons method rest ih =>
      rw [List.foldl_cons, ih]
      simp [joinStep]

/-- A name has a group if one of its methods is grouped, or if an extension method has it. -/
theorem isSome_get?_methodGroups {access : MemberAccess} {isStatic : Bool} :
    ((methodGroups system type access extensions).get? (name, isStatic)).isSome ↔
      (∃ method ∈ offered system type access, hasKey (name, isStatic) method ∧
        roleOf system method.definition = .grouped) ∨
      ∃ method ∈ joining system type access extensions, (method.definition.name, false) = (name, isStatic) := by
  have fold := get?_foldl_join (joining system type access extensions)
    (walkMethods system type access).groups (name, isStatic)
  rw [methodGroups]
  rw [joining] at fold
  rw [fold, isSome_foldl_joinStep, walkMethods, get?_groups_foldl, isSome_foldl_groupStep]
  simp [offered, joining, List.filter_eq_nil_iff, and_assoc, and_left_comm]

/-- What has a group in a walk over visible members has one in a walk over all. -/
theorem isSome_get?_all {isStatic : Bool}
    (present : ((methodGroups system type .visibleOnly extensions).get? (name, isStatic)).isSome) :
    ((methodGroups system type .all extensions).get? (name, isStatic)).isSome := by
  rw [isSome_get?_methodGroups] at present ⊢
  refine present.imp (fun ⟨method, taken, key, role⟩ => ⟨method, ?_, key, role⟩) id
  rcases List.mem_filter.mp taken with ⟨walked, supported⟩
  refine List.mem_filter.mpr ⟨?_, supported⟩
  rw [walkedMethods_eq]
  exact List.mem_filter.mpr ⟨mem_methods_of_walked walked, rfl⟩

/-- A group has the name of a declared method or of an extension method. -/
theorem exists_method_of_group {access : MemberAccess} {isStatic : Bool}
    (present : ((methodGroups system type access extensions).get? (name, isStatic)).isSome) :
    (∃ method ∈ system.methods type, method.definition.name = name) ∨
      ∃ method ∈ joining system type access extensions, method.definition.name = name := by
  rcases isSome_get?_methodGroups.mp present with ⟨method, taken, key, -⟩ | ⟨method, joins, same⟩
  · exact .inl ⟨method, mem_methods_of_walked (List.mem_filter.mp taken).1, (Prod.mk.inj (of_decide_eq_true key)).1⟩
  · exact .inr ⟨method, joins, (Prod.mk.inj same).1⟩

/-! ## What groups are used for -/

/-- The group members at a place depend only on the groups of the name. -/
theorem filter_groupMembers (groups : MethodGroups) (place : MemberTable × String) :
    (groupMembers groups).filter (fun member => member.place = place) =
      (groupMembers (named groups place.2)).filter fun member => member.place = place := by
  simp only [groupMembers, named, FinMap.restrict, List.filter_map, List.filter_filter]
  congr 1
  refine List.filter_congr fun entry _ => ?_
  by_cases same : entry.1.1 = place.2
  · simp [same]
  · simp [CatalogMember.place, Prod.ext_iff, same]

theorem exists_group_of_mem {groups : MethodGroups} {member : CatalogMember} (listed : member ∈ groupMembers groups) :
    member.kind = .method ∧ (Operator.ofMethodName? member.name).isNone ∧
      (groups.get? (member.name, member.isStatic)).isSome := by
  rcases List.mem_map.mp listed with ⟨⟨⟨name, isStatic⟩, methods⟩, present, rfl⟩
  rcases List.mem_filter.mp present with ⟨present, ordinary⟩
  exact ⟨rfl, ordinary, FinMap.isSome_get?_of_mem present⟩

theorem exists_mem_of_group {groups : MethodGroups} {isStatic : Bool}
    (present : (groups.get? (name, isStatic)).isSome) (ordinary : (Operator.ofMethodName? name).isNone) :
    ∃ member ∈ groupMembers groups, member.kind = .method ∧ member.name = name ∧ member.isStatic = isStatic := by
  rcases Option.isSome_iff_exists.mp present with ⟨methods, found⟩
  refine ⟨groupMember name isStatic methods, List.mem_map.mpr ⟨((name, isStatic), methods), ?_, rfl⟩, rfl, rfl, rfl⟩
  exact List.mem_filter.mpr ⟨FinMap.mem_entries_of_get? found, ordinary⟩

theorem ofMethodName?_eq_some {operator : Operator} :
    Operator.ofMethodName? name = some operator ↔ name = operator.methodName := by
  constructor
  · intro found
    rw [Operator.ofMethodName?] at found
    have matched := List.find?_some found
    exact (beq_iff_eq.mp matched).symm
  · rintro rfl
    cases operator <;> rfl

/-- What an operator gets from the groups of its name. -/
def operands (groups : List ((String × Bool) × List Method)) : Option (List Method) :=
  groups.foldl (fun methods entry => some (methods.getD [] ++ entry.2)) none

theorem operands_eq_none {groups : List ((String × Bool) × List Method)} : operands groups = none ↔ groups = [] := by
  have some : ∀ (groups : List ((String × Bool) × List Method)) (methods : List Method),
      groups.foldl (fun methods entry => some (methods.getD [] ++ entry.2)) (some methods) ≠ none := by
    intro groups
    induction groups with
    | nil => intro methods impossible; cases impossible
    | cons entry rest ih => exact fun methods => ih _
  cases groups with
  | nil => exact ⟨fun _ => rfl, fun _ => rfl⟩
  | cons entry rest => exact ⟨fun absent => absurd absent (some rest _), fun impossible => by cases impossible⟩

theorem get?_operatorGroups (groups : MethodGroups) (operator : Operator) :
    (operatorGroups groups).get? operator = operands (named groups operator.methodName).entries := by
  have fold : ∀ (entries : List ((String × Bool) × List Method)) (start : FinMap Operator (List Method)),
      (entries.foldl (fun operators entry =>
        (Operator.ofMethodName? entry.1.1).elim operators fun operator =>
          operators.insert operator ((operators.get? operator).getD [] ++ entry.2)) start).get? operator =
      (entries.filter fun entry => entry.1.1 = operator.methodName).foldl
        (fun methods entry => some (methods.getD [] ++ entry.2)) (start.get? operator) := by
    intro entries
    induction entries with
    | nil => exact fun _ => rfl
    | cons entry rest ih =>
        intro start
        rw [List.foldl_cons, ih, List.filter_cons]
        cases named : Operator.ofMethodName? entry.1.1 with
        | none =>
            have other : entry.1.1 ≠ operator.methodName := fun same => by
              rw [ofMethodName?_eq_some.mpr same] at named
              cases named
            rw [if_neg (by simp [other])]
            rfl
        | some found =>
            rcases ofMethodName?_eq_some.mp named with known
            by_cases same : found = operator
            · subst same
              rw [if_pos (decide_eq_true known), List.foldl_cons, Option.elim_some, FinMap.get?_insert_self]
            · have other : entry.1.1 ≠ operator.methodName := fun equal => same (Option.some.inj
                (named.symm.trans (ofMethodName?_eq_some.mpr equal)))
              rw [if_neg (by simp [other]), Option.elim_some, FinMap.get?_insert_of_ne _ _ (Ne.symm same)]
  exact fold groups.entries .empty

/-- The operators of the visible members, overwritten by those of the hidden ones, are those of all members. -/
theorem operators_addedLater (operator : Operator) :
    ((ofType system type .hiddenOnly extensions).operators.get? operator).or
        ((ofType system type .visibleOnly extensions).operators.get? operator) =
      (ofType system type .all extensions).operators.get? operator := by
  simp only [ofType, get?_operatorGroups]
  by_cases hidden : operator.methodName ∈ hiddenNames system type
  · rw [named_hiddenOnly hidden]
    cases all : operands (named (methodGroups system type .all extensions) operator.methodName).entries with
    | some methods => rfl
    | none =>
        -- Without a group in the walk over all members there is none in the walk over visible ones.
        rw [Option.none_or, operands_eq_none]
        rw [operands_eq_none] at all
        refine List.eq_nil_iff_forall_not_mem.mpr fun entry listed => ?_
        rcases entry with ⟨⟨name, isStatic⟩, methods⟩
        rcases List.mem_filter.mp listed with ⟨listed, wanted⟩
        rcases Option.isSome_iff_exists.mp (isSome_get?_all (FinMap.isSome_get?_of_mem listed)) with ⟨group, found⟩
        have present : ((name, isStatic), group) ∈
            (named (methodGroups system type .all extensions) operator.methodName).entries :=
          List.mem_filter.mpr ⟨FinMap.mem_entries_of_get? found, wanted⟩
        rw [all] at present
        cases present
  · rw [named_hiddenOnly_eq_empty hidden, named_visibleOnly hidden]
    exact Option.none_or

end Catalog

end ScriptBridge
