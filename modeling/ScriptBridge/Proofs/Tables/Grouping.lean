import ScriptBridge.Proofs.Tables.AddedLater
import ScriptBridge.Proofs.Tables.Groups

/-!
# How a walk sorts methods

A walk sees the methods of a type one after the other. The methods of a name and
staticness are sorted one by one until one of them is ordinary; from that method on they
are one group, which the extension methods of the name join at the end. So a walk neither
loses nor repeats a method, and the groups come in the order of their first methods.
-/

namespace ScriptBridge

/-- The types that a method takes, and those that its generic parameters are constrained to. -/
def MethodDef.takes (method : MethodDef) : List TypeRef :=
  (method.parameters.filterMap fun parameter =>
    match parameter.type with
    | .host type => some type
    | .generic _ => none) ++ method.generics.flatMap (·.constraints)

theorem MethodDef.Receives.mem_takes {method : MethodDef} {type : TypeRef} (receives : method.Receives type) :
    type ∈ method.takes := by
  rcases receives with ⟨parameter, first, given | ⟨place, generic, -, present, constrained⟩⟩
  · exact List.mem_append_left _ (List.mem_filterMap.mpr ⟨parameter, List.mem_of_head? first, by rw [given]⟩)
  · exact List.mem_append_right _ (List.mem_flatMap.mpr
      ⟨generic, List.mem_of_getElem? present, List.mem_of_head? constrained⟩)

namespace TypeSystem

variable {system : TypeSystem}

/-- A type is declared when the types that its methods take are there: they stand lower. -/
def TakesEarlier (system : TypeSystem) : Prop :=
  ∀ index, ∀ method ∈ (system.definition (.declared index)).methods, ∀ type ∈ method.takes, type.rank < 2 * index

theorem takesEarlier_iff : system.TakesEarlier ↔
    ∀ index < system.types.length, ∀ method ∈ (system.definition (.declared index)).methods,
      ∀ type ∈ method.takes, type.rank < 2 * index := by
  refine ⟨fun earlier index _ => earlier index, fun earlier index => ?_⟩
  by_cases present : index < system.types.length
  · exact earlier index present
  · intro method listed
    rw [definition, List.getElem?_eq_none (Nat.le_of_not_lt present)] at listed
    cases listed

instance (system : TypeSystem) : Decidable system.TakesEarlier := decidable_of_iff _ takesEarlier_iff.symm

/-- No type has a method that extends the type itself. -/
theorem TakesEarlier.owner_ne (earlier : system.TakesEarlier) {type : TypeRef} {method : Method}
    (extends_ : method.Extends system type) : method.owner ≠ type := by
  intro same
  have declared := extends_.declared
  rw [same, methods] at declared
  rcases List.mem_mapIdx.mp declared with ⟨position, bound, rfl⟩
  cases type with
  | array element => simp [definition, TypeDef.named] at bound
  | declared index =>
      exact Nat.lt_irrefl _ (earlier index _ (List.getElem_mem bound) _ extends_.receives.mem_takes)

end TypeSystem

namespace FinMap

theorem eraseDups_append_singleton {κ : Type} [BEq κ] [LawfulBEq κ] (written : List κ) (key : κ) :
    (written ++ [key]).eraseDups = if key ∈ written then written.eraseDups else written.eraseDups ++ [key] := by
  rw [List.eraseDups_append]
  by_cases present : key ∈ written <;> simp [present, List.removeAll, List.eraseDups_cons]

variable {κ ν : Type} [DecidableEq κ]

theorem map_fst_write (key : κ) (value : ν) (entries : List (κ × ν)) :
    (write key value entries).map Prod.fst =
      if key ∈ entries.map Prod.fst then entries.map Prod.fst else entries.map Prod.fst ++ [key] := by
  induction entries with
  | nil => rfl
  | cons entry rest ih =>
      rw [write, List.map_cons]
      by_cases same : entry.1 = key
      · rw [if_pos same, if_pos (List.mem_cons.mpr (.inl same.symm)), List.map_cons, same]
      · have elsewhere : key ∈ entry.1 :: rest.map Prod.fst ↔ key ∈ rest.map Prod.fst := by
          rw [List.mem_cons, or_iff_right (Ne.symm same)]
        rw [if_neg same, List.map_cons, ih, if_congr elsewhere rfl rfl, List.cons_append, apply_ite (entry.1 :: ·)]

theorem mem_keys_iff {map : FinMap κ ν} {key : κ} : key ∈ map.keys ↔ map.contains key = true := by
  constructor
  · intro listed
    rcases List.mem_map.mp listed with ⟨⟨_, value⟩, present, rfl⟩
    exact isSome_get?_of_mem present
  · intro present
    rcases Option.isSome_iff_exists.mp present with ⟨value, found⟩
    exact List.mem_map_of_mem (mem_entries_of_get? found)

/-- Keys come in the order in which they are first written. -/
theorem keys_insert [BEq κ] [LawfulBEq κ] {map : FinMap κ ν} {written : List κ}
    (known : map.keys = written.eraseDups) (key : κ) (value : ν) :
    (map.insert key value).keys = (written ++ [key]).eraseDups := by
  have listed : key ∈ map.entries.map Prod.fst ↔ key ∈ written := by
    rw [← keys, known, List.mem_eraseDups]
  refine (map_fst_write key value map.entries).trans ?_
  rw [eraseDups_append_singleton, ← known]
  by_cases present : key ∈ written
  · rw [if_pos present, if_pos (listed.mpr present), keys]
  · rw [if_neg present, if_neg (present ∘ listed.mp), keys]

/-- A map is its keys with the values that it has for them. -/
theorem entries_eq_map {map : FinMap κ ν} (distinct : map.keys.Nodup) {value : κ → ν}
    (values : ∀ key ∈ map.keys, map.get? key = some (value key)) :
    map.entries = map.keys.map fun key => (key, value key) := by
  rw [keys, List.map_map]
  refine (List.map_id _).symm.trans (List.map_congr_left fun entry listed => ?_)
  have found := values entry.1 (List.mem_map_of_mem listed)
  rw [get?_of_mem distinct (show (entry.1, entry.2) ∈ map.entries from listed)] at found
  exact Prod.ext rfl (Option.some.inj found)

end FinMap

namespace Catalog

variable {system : TypeSystem} {type : TypeRef} {access : MemberAccess} {extensions : Option ExtensionMap}

/-! ## Ordinary methods -/

/--
The method is no constructor, and no special method that scripts reach in another way or not at all: the accessor of an
indexer whose key takes no strings or of an event, an operator that scripts do not have, or the accessor of a property.
-/
def IsOrdinary (system : TypeSystem) (method : MethodDef) : Prop :=
  method.name ≠ ".ctor" ∧
    (method.isSpecial = true →
      isKeyedItemAccessor system method = false ∧
        Text.opens "add_" method.name = false ∧ Text.opens "remove_" method.name = false ∧
        (Text.opens "op_" method.name = true → (Operator.ofMethodName? method.name).isSome) ∧
        (Text.opens "get_" method.name = true → method.parameters.length = 1) ∧
        (Text.opens "set_" method.name = true → method.parameters.length = 2))

instance (method : MethodDef) : Decidable (IsOrdinary system method) :=
  inferInstanceAs (Decidable (_ ∧ _))

/-- Two starts of which neither opens the other do not open the same text. -/
theorem opens_eq_false {start other text : String} (opened : Text.opens start text = true)
    (apart : ¬start.toList <+: other.toList ∧ ¬other.toList <+: start.toList) : Text.opens other text = false := by
  rw [Bool.eq_false_iff]
  intro openedToo
  rw [Text.opens, List.isPrefixOf_iff_prefix] at opened openedToo
  exact (List.prefix_or_prefix_of_prefix opened openedToo).elim apart.1 apart.2

theorem accessedProperty?_eq_none_iff {method : MethodDef} :
    accessedProperty? method = none ↔
      (Text.opens "get_" method.name = true → method.parameters.length = 1) ∧
        (Text.opens "set_" method.name = true → method.parameters.length = 2) := by
  have apart : ¬"get_".toList <+: "set_".toList ∧ ¬"set_".toList <+: "get_".toList := by decide
  rw [accessedProperty?]
  cases reads : Text.opens "get_" method.name with
  | true =>
      have writes := opens_eq_false reads apart
      rw [Text.after?, if_pos reads, writes]
      by_cases single : method.parameters.length = 1 <;> simp [single]
  | false =>
      rw [Text.after?_eq_none.mpr reads]
      cases writes : Text.opens "set_" method.name with
      | true =>
          rw [Text.after?, if_pos writes]
          by_cases double : method.parameters.length = 2 <;> simp [double]
      | false =>
          rw [Text.after?_eq_none.mpr writes]
          simp

theorem ite_skipped_eq_grouped {skips : Prop} [Decidable skips] {role : MethodRole} :
    (if skips then .skipped else role) = MethodRole.grouped ↔ ¬skips ∧ role = .grouped := by
  by_cases holds : skips <;> simp [holds]

/-- A method opens a group exactly if it is ordinary. -/
theorem roleOf_eq_grouped_iff {method : MethodDef} : roleOf system method = .grouped ↔ IsOrdinary system method := by
  rw [roleOf, IsOrdinary]
  cases special : method.isSpecial with
  | false => by_cases ctor : method.name = ".ctor" <;> simp [ctor]
  | true =>
      rw [← accessedProperty?_eq_none_iff]
      cases operates : Text.opens "op_" method.name with
      | true =>
          have noReader : Text.opens "get_" method.name = false := opens_eq_false operates (by decide)
          have noWriter : Text.opens "set_" method.name = false := opens_eq_false operates (by decide)
          have noProperty : accessedProperty? method = none :=
            accessedProperty?_eq_none_iff.mpr ⟨by simp [noReader], by simp [noWriter]⟩
          have noConstructor : method.name ≠ ".ctor" := by
            intro same
            rw [same] at operates
            cases operates
          simp [noProperty, noConstructor, ite_skipped_eq_grouped, and_assoc, Option.isSome_iff_ne_none]
      | false =>
          cases accessedProperty? method <;> simp [ite_skipped_eq_grouped, and_comm, and_left_comm]

/-! ## What a walk makes of the methods of one name and staticness -/

/-- The methods of a name and staticness that a walk offers, in the order of their declarations. -/
def offeredAs (system : TypeSystem) (type : TypeRef) (access : MemberAccess) (key : String × Bool) : List Method :=
  (offered system type access).filter (hasKey key)

/-- The methods of a name and staticness before the first ordinary one. -/
def soloMethods (system : TypeSystem) (type : TypeRef) (access : MemberAccess) (key : String × Bool) : List Method :=
  (offeredAs system type access key).takeWhile fun method => ¬IsOrdinary system method.definition

/-- The methods of a name and staticness from the first ordinary one on, and then the extension methods of the name. -/
def groupOf (system : TypeSystem) (type : TypeRef) (access : MemberAccess) (extensions : Option ExtensionMap)
    (key : String × Bool) : List Method :=
  ((offeredAs system type access key).dropWhile fun method => ¬IsOrdinary system method.definition) ++
    joinedMethods system type access extensions key

/-- The keys of the ordinary methods and of the extension methods, in the order of their first methods. -/
def groupKeys (system : TypeSystem) (type : TypeRef) (access : MemberAccess) (extensions : Option ExtensionMap) :
    List (String × Bool) :=
  (((offered system type access).filter fun method => IsOrdinary system method.definition).map
      (fun method => (method.definition.name, method.definition.isStatic)) ++
    (joining system type access extensions).map fun method => (method.definition.name, false)).eraseDups

/-- The member that a method makes when it is sorted alone. -/
def soloMember? (system : TypeSystem) (method : Method) : Option CatalogMember :=
  match roleOf system method.definition with
  | .accessor kind name => some ⟨name, method.definition.isStatic, kind, .accessor method⟩
  | _ => none

/-- Whether a member is made from a single method of the name and staticness. -/
def isSoloMember (key : String × Bool) (member : CatalogMember) : Bool :=
  match member.source with
  | .accessor method => hasKey key method
  | _ => false

theorem groupOf_eq (key : String × Bool) :
    groupOf system type access extensions key =
      ownMethods system type access key ++ joinedMethods system type access extensions key := by
  have opens : (fun method : Method => decide ¬IsOrdinary system method.definition) =
      fun method => decide (roleOf system method.definition ≠ .grouped) :=
    funext fun method => decide_eq_decide.mpr (not_congr roleOf_eq_grouped_iff.symm)
  rw [groupOf, ownMethods, offeredAs, opens]

/-- A name and staticness has a group exactly if there are methods for it. -/
theorem get?_methodGroups_eq (key : String × Bool) :
    (methodGroups system type access extensions).get? key =
      group? (groupOf system type access extensions key) := by
  rw [get?_methodGroups, groupOf_eq]

/-- A step of the walk brings a new group for an ordinary method whose name and staticness have none. -/
theorem keys_step {walk : MethodWalk} {written : List (String × Bool)} (known : walk.groups.keys = written.eraseDups)
    (method : Method) :
    (walk.step system method).groups.keys =
      if IsOrdinary system method.definition then
        (written ++ [(method.definition.name, method.definition.isStatic)]).eraseDups
      else written.eraseDups := by
  rw [MethodWalk.step]
  split
  next present =>
    have written := List.mem_eraseDups.mp (known ▸ FinMap.mem_keys_iff.mpr present)
    rw [join, FinMap.keys_insert known, FinMap.eraseDups_append_singleton, if_pos written, ite_self]
  next =>
    by_cases ordinary : IsOrdinary system method.definition
    · rw [if_pos ordinary, roleOf_eq_grouped_iff.mpr ordinary, join, FinMap.keys_insert known]
    · have role : roleOf system method.definition ≠ .grouped := ordinary ∘ roleOf_eq_grouped_iff.mp
      rw [if_neg ordinary, ← known]
      cases found : roleOf system method.definition with
      | grouped => exact absurd found role
      | skipped => rfl
      | accessor => rfl

theorem keys_walk (methods : List Method) :
    (methods.foldl (MethodWalk.step system) ⟨[], .empty⟩).groups.keys =
      ((methods.filter fun method => IsOrdinary system method.definition).map
        fun method => (method.definition.name, method.definition.isStatic)).eraseDups := by
  induction methods using List.reverseRecOn with
  | nil => rfl
  | append_singleton methods method ih =>
      rw [List.foldl_append, List.foldl_cons, List.foldl_nil, keys_step ih, List.filter_append, List.map_append]
      by_cases ordinary : IsOrdinary system method.definition <;> simp [ordinary]

theorem keys_foldl_join {groups : MethodGroups} {written : List (String × Bool)}
    (known : groups.keys = written.eraseDups) (methods : List Method) :
    (methods.foldl (fun groups method => join groups (method.definition.name, false) method) groups).keys =
      (written ++ methods.map fun method => (method.definition.name, false)).eraseDups := by
  induction methods generalizing groups written with
  | nil => rw [List.foldl_nil, known, List.map_nil, List.append_nil]
  | cons method rest ih =>
      have joined : (join groups (method.definition.name, false) method).keys =
          (written ++ [(method.definition.name, false)]).eraseDups := FinMap.keys_insert known _ _
      rw [List.foldl_cons, ih joined, List.append_assoc, List.map_cons, List.singleton_append]

theorem keys_methodGroups :
    (methodGroups system type access extensions).keys = groupKeys system type access extensions :=
  keys_foldl_join (keys_walk (offered system type access)) (joining system type access extensions)

theorem mem_groupKeys_iff {key : String × Bool} :
    key ∈ groupKeys system type access extensions ↔ groupOf system type access extensions key ≠ [] := by
  rw [← keys_methodGroups, FinMap.mem_keys_iff, FinMap.contains, get?_methodGroups_eq, Option.isSome_iff_ne_none]
  exact not_congr group?_eq_none_iff

theorem nodup_groupKeys : (groupKeys system type access extensions).Nodup :=
  keys_methodGroups ▸ nodup_methodGroups system type access extensions

/-- The groups are those of the names and staticness in the order of their first methods. -/
theorem entries_methodGroups :
    (methodGroups system type access extensions).entries =
      (groupKeys system type access extensions).map fun key => (key, groupOf system type access extensions key) := by
  rw [← keys_methodGroups]
  refine FinMap.entries_eq_map (nodup_methodGroups system type access extensions) fun key listed => ?_
  rw [keys_methodGroups, mem_groupKeys_iff] at listed
  exact (get?_methodGroups_eq key).trans (group?_eq_some_iff.mpr ⟨rfl, listed⟩)

/-! ## Members of single methods -/

theorem soloMember?_of_ordinary {method : Method} (ordinary : IsOrdinary system method.definition) :
    soloMember? system method = none := by
  rw [soloMember?, roleOf_eq_grouped_iff.mpr ordinary]

theorem filter_soloMember? (key : String × Bool) (method : Method) :
    (soloMember? system method).toList.filter (isSoloMember key) =
      if hasKey key method then (soloMember? system method).toList else [] := by
  rw [soloMember?]
  cases roleOf system method.definition <;> cases same : hasKey key method <;> simp [isSoloMember, same]

theorem accessors_step (walk : MethodWalk) (method : Method) :
    (walk.step system method).accessors = walk.accessors ++
      if walk.groups.contains (method.definition.name, method.definition.isStatic) then []
      else (soloMember? system method).toList := by
  rw [MethodWalk.step, soloMember?]
  split
  next => rw [List.append_nil]
  next => cases roleOf system method.definition <;> simp

theorem contains_step (walk : MethodWalk) (method : Method) (key : String × Bool) :
    (walk.step system method).groups.contains key =
      (walk.groups.contains key || hasKey key method && decide (IsOrdinary system method.definition)) := by
  rw [FinMap.contains, get?_groups_step, FinMap.contains]
  cases hasKey key method with
  | false => simp
  | true =>
      simp only [if_true, groupStep, roleOf_eq_grouped_iff]
      cases walk.groups.get? key with
      | some methods => simp
      | none => by_cases ordinary : IsOrdinary system method.definition <;> simp [ordinary]

/-- Of the methods of a name and staticness a walk sorts those alone that come before the first ordinary one. -/
theorem soloMembers_foldl (methods : List Method) (walk : MethodWalk) (key : String × Bool) :
    (methods.foldl (MethodWalk.step system) walk).accessors.filter (isSoloMember key) =
      walk.accessors.filter (isSoloMember key) ++
        if walk.groups.contains key then []
        else ((methods.filter (hasKey key)).takeWhile fun method =>
          ¬IsOrdinary system method.definition).filterMap (soloMember? system) := by
  induction methods generalizing walk with
  | nil => simp
  | cons method rest ih =>
      rw [List.foldl_cons, ih, accessors_step, contains_step, List.filter_append, List.append_assoc]
      congr 1
      by_cases same : hasKey key method = true
      · have known : (method.definition.name, method.definition.isStatic) = key := of_decide_eq_true same
        rw [known]
        cases walk.groups.contains key with
        | true => simp
        | false =>
            by_cases ordinary : IsOrdinary system method.definition
            · simp [same, ordinary, soloMember?_of_ordinary ordinary]
            · have alone := @filter_soloMember? system key method
              rw [if_pos same] at alone
              cases made : soloMember? system method with
              | none => simp [same, ordinary, made]
              | some member =>
                  rw [made] at alone
                  simp only [Option.toList_some] at alone
                  simp [same, ordinary, made, alone]
      · have elsewhere := @filter_soloMember? system key method
        rw [if_neg same] at elsewhere
        simp only [Bool.not_eq_true] at same
        rw [apply_ite (List.filter (isSoloMember key)), elsewhere]
        simp [same]

theorem filter_isSoloMember (key : String × Bool) :
    (ofType system type access extensions).members.filter (isSoloMember key) =
      (soloMethods system type access key).filterMap (soloMember? system) := by
  have walked := @soloMembers_foldl system (offered system type access) ⟨[], .empty⟩ key
  have noField : ((((scriptFields system type access).filter fun entry => !isConstant entry.2).flatMap fun entry =>
      fieldMembers entry.1 entry.2).filter (isSoloMember key)) = [] := by
    refine List.filter_eq_nil_iff.mpr fun member listed => ?_
    rcases List.mem_flatMap.mp listed with ⟨entry, -, made⟩
    simp only [fieldMembers, List.mem_cons, List.not_mem_nil, or_false] at made
    rcases made with rfl | rfl <;> simp [isSoloMember]
  have noEvent : (eventMembers system type access).filter (isSoloMember key) = [] := by
    refine List.filter_eq_nil_iff.mpr fun member listed => ?_
    rcases List.mem_map.mp listed with ⟨event, -, rfl⟩
    simp [isSoloMember]
  have noGroup : (groupMembers (methodGroups system type access extensions)).filter (isSoloMember key) = [] := by
    refine List.filter_eq_nil_iff.mpr fun member listed => ?_
    rcases List.mem_map.mp listed with ⟨entry, -, rfl⟩
    simp [isSoloMember]
  simp only [ofType, List.filter_append, noField, noEvent, noGroup, List.nil_append, List.append_nil]
  exact walked

/-! ## Groups as members and operators -/

theorem filter_isMethod :
    (ofType system type access extensions).members.filter (fun member => member.kind = .method) =
      ((groupKeys system type access extensions).filter fun key => (Operator.ofMethodName? key.1).isNone).map
        fun key => groupMember key.1 key.2 (groupOf system type access extensions key) := by
  rcases members_eq system type access extensions with ⟨others, members, noMethod⟩
  have noOther : others.filter (fun member => member.kind = .method) = [] :=
    List.filter_eq_nil_iff.mpr fun member listed => by simp [noMethod member listed]
  have every : (groupMembers (methodGroups system type access extensions)).filter
      (fun member => member.kind = .method) = groupMembers (methodGroups system type access extensions) := by
    refine List.filter_eq_self.mpr fun member listed => ?_
    rcases List.mem_map.mp listed with ⟨entry, -, rfl⟩
    rfl
  rw [members, List.filter_append, noOther, every, List.nil_append, groupMembers, entries_methodGroups,
    List.filter_map, List.map_map]
  rfl

theorem operands_of_ne_nil {groups : List ((String × Bool) × List Method)} (some_ : groups ≠ []) :
    operands groups = some (groups.flatMap Prod.snd) := by
  have fold : ∀ (groups : List ((String × Bool) × List Method)) (methods : List Method),
      groups.foldl (fun methods entry => some (methods.getD [] ++ entry.2)) (some methods) =
        some (methods ++ groups.flatMap Prod.snd) := by
    intro groups
    induction groups with
    | nil => simp
    | cons entry rest ih =>
        intro methods
        rw [List.foldl_cons, ih, Option.getD_some, List.append_assoc, List.flatMap_cons]
  cases groups with
  | nil => exact absurd rfl some_
  | cons entry rest => exact fold rest entry.2

theorem keys_operatorGroups (groups : MethodGroups) :
    (operatorGroups groups).keys = (groups.keys.filterMap fun key => Operator.ofMethodName? key.1).eraseDups := by
  rcases groups with ⟨entries⟩
  induction entries using List.reverseRecOn with
  | nil => rfl
  | append_singleton entries entry ih =>
      have last : operatorGroups ⟨entries ++ [entry]⟩ =
          (Operator.ofMethodName? entry.1.1).elim (operatorGroups ⟨entries⟩) fun operator =>
            (operatorGroups ⟨entries⟩).insert operator
              (((operatorGroups ⟨entries⟩).get? operator).getD [] ++ entry.2) := by
        simp only [operatorGroups, List.foldl_append, List.foldl_cons, List.foldl_nil]
      have keys : (FinMap.mk (entries ++ [entry])).keys = (FinMap.mk entries).keys ++ [entry.1] := List.map_append
      rw [last, keys, List.filterMap_append]
      cases mapped : Operator.ofMethodName? entry.1.1 with
      | none => simp [mapped, ih]
      | some operator =>
          rw [Option.elim_some, FinMap.keys_insert ih]
          simp [mapped]

/-- An operator has the groups of its name, one after the other. -/
theorem entries_operators :
    (ofType system type access extensions).operators.entries =
      ((groupKeys system type access extensions).filterMap fun key => Operator.ofMethodName? key.1).eraseDups.map
        fun operator => (operator, ((groupKeys system type access extensions).filter fun key =>
          Operator.ofMethodName? key.1 = some operator).flatMap (groupOf system type access extensions)) := by
  have keys : (ofType system type access extensions).operators.keys =
      ((groupKeys system type access extensions).filterMap fun key => Operator.ofMethodName? key.1).eraseDups := by
    rw [← keys_methodGroups]
    exact keys_operatorGroups _
  rw [← keys]
  refine FinMap.entries_eq_map (nodup_operators access extensions) fun operator listed => ?_
  have groups : (named (methodGroups system type access extensions) operator.methodName).entries =
      ((groupKeys system type access extensions).filter fun key =>
        Operator.ofMethodName? key.1 = some operator).map
          fun key => (key, groupOf system type access extensions key) := by
    have sameName : (fun key : String × Bool => decide (key.1 = operator.methodName)) =
        fun key => decide (Operator.ofMethodName? key.1 = some operator) :=
      funext fun key => decide_eq_decide.mpr ofMethodName?_eq_some.symm
    rw [named, FinMap.restrict, entries_methodGroups, List.filter_map]
    exact congrArg (fun kept => (List.filter kept _).map _) sameName
  rw [keys, List.mem_eraseDups, List.mem_filterMap] at listed
  rcases listed with ⟨key, isKey, mapped⟩
  have some_ : (named (methodGroups system type access extensions) operator.methodName).entries ≠ [] := by
    rw [groups]
    exact List.ne_nil_of_mem (List.mem_map_of_mem (List.mem_filter.mpr ⟨isKey, decide_eq_true mapped⟩))
  have operatorsOf : (ofType system type access extensions).operators.get? operator = _ :=
    get?_operatorGroups (methodGroups system type access extensions) operator
  rw [operatorsOf, operands_of_ne_nil some_, groups, List.flatMap_map]

/-! ## No method in two groups -/

theorem nodup_methods (system : TypeSystem) (type : TypeRef) : (system.methods type).Nodup := by
  rw [List.Nodup, List.pairwise_iff_getElem]
  intro first second isFirst isSecond before same
  simp only [TypeSystem.methods, List.getElem_mapIdx, Method.mk.injEq, MethodPlace.method.injEq] at same
  omega

theorem nodup_offeredAs (key : String × Bool) : (offeredAs system type access key).Nodup := by
  have walked : (walkedMethods system type access).Nodup := by
    rw [walkedMethods]
    split <;> exact (nodup_methods system type).filter _
  exact (walked.filter _).filter _

theorem mem_offeredAs {key : String × Bool} {method : Method} (offers : method ∈ offeredAs system type access key) :
    method ∈ system.methods type ∧ (method.definition.name, method.definition.isStatic) = key := by
  rcases List.mem_filter.mp offers with ⟨offers, named⟩
  exact ⟨mem_methods_of_walked (List.mem_filter.mp offers).1, of_decide_eq_true named⟩

/-- The methods of a group are methods of the type with its key, or join it and are declared elsewhere. -/
theorem own_or_joined (earlier : system.TakesEarlier) (declared : ∀ map, extensions = some map → map.DeclaredIn system)
    {key : String × Bool} {method : Method} (grouped : method ∈ groupOf system type access extensions key) :
    (method.owner = type ∧ method ∈ (offeredAs system type access key).dropWhile
        (fun method => ¬IsOrdinary system method.definition) ∧
      (method.definition.name, method.definition.isStatic) = key) ∨
    (method.owner ≠ type ∧ (method.definition.name, false) = key) := by
  rcases List.mem_append.mp grouped with own | joined
  · rcases mem_offeredAs ((List.dropWhile_sublist _).mem own) with ⟨listed, named⟩
    exact .inl ⟨system.owner_of_mem_methods listed, own, named⟩
  · rcases List.mem_filter.mp joined with ⟨joins, named⟩
    refine .inr ⟨?_, of_decide_eq_true named⟩
    cases extensions with
    | none => cases joins
    | some map => exact earlier.owner_ne (declared map rfl type method (List.mem_filter.mp joins).1)

/-- A method is in one group at most. -/
theorem eq_of_mem_groupOf (earlier : system.TakesEarlier)
    (declared : ∀ map, extensions = some map → map.DeclaredIn system) {key other : String × Bool} {method : Method}
    (grouped : method ∈ groupOf system type access extensions key)
    (groupedToo : method ∈ groupOf system type access extensions other) : key = other := by
  rcases own_or_joined earlier declared grouped with ⟨isOwn, -, named⟩ | ⟨isForeign, named⟩ <;>
    rcases own_or_joined earlier declared groupedToo with ⟨isOwnToo, -, namedToo⟩ | ⟨isForeignToo, namedToo⟩
  · exact named.symm.trans namedToo
  · exact absurd isOwn isForeignToo
  · exact absurd isOwnToo isForeign
  · exact named.symm.trans namedToo

/-- A method that comes before the first ordinary one is in no group. -/
theorem not_mem_groupOf_of_solo (earlier : system.TakesEarlier)
    (declared : ∀ map, extensions = some map → map.DeclaredIn system) {key other : String × Bool} {method : Method}
    (alone : method ∈ soloMethods system type access key) :
    method ∉ groupOf system type access extensions other := by
  intro grouped
  rcases mem_offeredAs ((List.takeWhile_sublist _).mem alone) with ⟨listed, named⟩
  rcases own_or_joined earlier declared grouped with ⟨-, later, namedToo⟩ | ⟨isForeign, -⟩
  · obtain rfl := named.symm.trans namedToo
    have distinct := @nodup_offeredAs system type access key
    have split : soloMethods system type access key ++ (offeredAs system type access key).dropWhile
        (fun method => ¬IsOrdinary system method.definition) = offeredAs system type access key :=
      List.takeWhile_append_dropWhile
    rw [← split] at distinct
    exact List.disjoint_of_nodup_append distinct alone later
  · exact isForeign (system.owner_of_mem_methods listed)

/-- How the methods of a type are sorted into the members and the operators of a catalog. -/
structure SortsMethods (system : TypeSystem) (type : TypeRef) (access : MemberAccess) (extensions : Option ExtensionMap)
    (catalog : Catalog) : Prop where
  /-- The methods of a key before the first ordinary one make a member each, or none. -/
  solo : ∀ key, catalog.members.filter (isSoloMember key) =
    (soloMethods system type access key).filterMap (soloMember? system)
  /-- They are in no group. -/
  alone : ∀ key, ∀ method ∈ soloMethods system type access key, ∀ other,
    method ∉ groupOf system type access extensions other
  /-- The other methods of a key and the extension methods that join them are one group, if there are any. -/
  keys : (groupKeys system type access extensions).Nodup ∧
    ∀ key, key ∈ groupKeys system type access extensions ↔ groupOf system type access extensions key ≠ []
  /-- A method is in one group at most. -/
  apart : ∀ key other method, method ∈ groupOf system type access extensions key →
    method ∈ groupOf system type access extensions other → key = other
  /-- The groups are members in the order of their first methods, those of operators apart. -/
  groups : catalog.members.filter (fun member => member.kind = .method) =
    ((groupKeys system type access extensions).filter fun key => (Operator.ofMethodName? key.1).isNone).map
      fun key => groupMember key.1 key.2 (groupOf system type access extensions key)
  /-- The groups of one operator are joined in that order as well. -/
  operators : catalog.operators.entries =
    ((groupKeys system type access extensions).filterMap fun key => Operator.ofMethodName? key.1).eraseDups.map
      fun operator => (operator, ((groupKeys system type access extensions).filter fun key =>
        Operator.ofMethodName? key.1 = some operator).flatMap (groupOf system type access extensions))

/--
A walk over the methods of a type sorts them without loss or repetition, whatever it admits and whatever extension
methods are known. Types take what is declared before them, so that no type has an extension method of its own.
-/
theorem methods_sorted (system : TypeSystem) (earlier : system.TakesEarlier) (type : TypeRef) (access : MemberAccess)
    (extensions : Option ExtensionMap) (declared : ∀ map, extensions = some map → map.DeclaredIn system) :
    SortsMethods system type access extensions (ofType system type access extensions) where
  solo _ := filter_isSoloMember _
  alone _ _ alone _ := not_mem_groupOf_of_solo earlier declared alone
  keys := ⟨nodup_groupKeys, fun _ => mem_groupKeys_iff⟩
  apart _ _ _ := eq_of_mem_groupOf earlier declared
  groups := filter_isMethod
  operators := entries_operators

/-- A gauge with accessors, a method and an operator, and an extension method that has the name of the method. -/
def gauges : TypeSystem where
  types := coreTypes ++
    [ (TypeDef.ofClass "Game" "Gauge").addMethods
        [ { MethodDef.named "get_Level" (.native 0) with isSpecial := true },
          { MethodDef.named "get_Level" (.native 1) with
            isSpecial := true, parameters := [.plain "unit" .string] },
          .named "Read" (.native 2),
          { MethodDef.named "get_Level" (.native 3) with isSpecial := true },
          { MethodDef.named "op_Addition" (.native 4) with isSpecial := true, isStatic := true } ],
      { (TypeDef.ofClass "Game" "GaugeExtensions").addMethods
          [ { MethodDef.named "Read" (.native 5) with
              isStatic := true, isExtension := true, parameters := [.plain "gauge" (.declared 14)] } ] with
        isExtensionContainer := true } ]
  starts_with_core := by decide
  founded := by decide

/-- The first accessor of the gauge is a member of its own; the second one opens a group, which the third one joins. -/
theorem methods_sorted_gauge :
    let extensions := some (ExtensionMap.collect gauges ⟨.ofList [("Game.GaugeExtensions", .declared 15)]⟩)
    gauges.TakesEarlier ∧
      SortsMethods gauges (.declared 14) .visibleOnly extensions
        (ofType gauges (.declared 14) .visibleOnly extensions) ∧
      (soloMethods gauges (.declared 14) .visibleOnly ("get_Level", false)).map (·.place) = [.method 0] ∧
      (groupKeys gauges (.declared 14) .visibleOnly extensions).map (fun key =>
        (key, (groupOf gauges (.declared 14) .visibleOnly extensions key).map (·.definition.body))) =
        [ (("get_Level", false), [.native 1, .native 3]), (("Read", false), [.native 2, .native 5]),
          (("op_Addition", true), [.native 4]) ] := by
  intro extensions
  have earlier : gauges.TakesEarlier := by decide +kernel
  have declared : ∀ map, extensions = some map → map.DeclaredIn gauges := fun _ known =>
    Option.some.inj known ▸ ExtensionMap.declaredIn_collect gauges _
  exact ⟨earlier, methods_sorted gauges earlier (.declared 14) .visibleOnly extensions declared, by decide +kernel,
    by decide +kernel⟩

end Catalog

end ScriptBridge
