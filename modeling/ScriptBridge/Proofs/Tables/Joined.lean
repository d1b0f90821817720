import Mathlib.Data.List.TakeWhile
import ScriptBridge.Proofs.Conversion.Selection
import ScriptBridge.Proofs.Tables.FirstUse
import ScriptBridge.Proofs.Tables.Grouping

/-!
# Extension methods in the tables of the types that they extend

The extension methods of a type are those of the containers that were reachable when they
were collected, in order. If the methods of one name all come from one container, and it
has no others of that name, the group of the type has the methods of the group of the
container. Both groups stand in slots which were filled when maybe fewer types were
declared, but with the same extension methods.
-/

namespace ScriptBridge

/-! ## Declarations that stay -/

namespace TypeSystem

variable {system later : TypeSystem} {type : TypeRef}

theorem Precedes.definition_eq_of_lt (precedes : system.Precedes later) {index : Nat}
    (declared : index < system.types.length) :
    later.definition (.declared index) = system.definition (.declared index) := by
  rcases precedes with ⟨more, extended⟩
  rw [definition, definition, ← extended, List.getElem?_append_left declared]

theorem Precedes.methods_eq (precedes : system.Precedes later) {method : Method}
    (declared : method ∈ system.methods type) : later.methods type = system.methods type := by
  rcases precedes.definition_eq type with ⟨-, same, -⟩ | ⟨-, none, -⟩
  · rw [methods, methods, same]
  · rw [methods, none] at declared
    cases declared

/-- Only declared types have methods. -/
theorem exists_index_of_mem_methods {method : Method} (declared : method ∈ system.methods type) :
    ∃ index < system.types.length, type = .declared index ∧
      method.definition ∈ (system.definition (.declared index)).methods := by
  rw [methods] at declared
  rcases List.mem_mapIdx.mp declared with ⟨position, bound, rfl⟩
  cases type with
  | array element => simp [definition, TypeDef.named] at bound
  | declared index =>
      refine ⟨index, ?_, rfl, List.getElem_mem bound⟩
      by_contra undeclared
      rw [definition, List.getElem?_eq_none (Nat.le_of_not_lt undeclared)] at bound
      cases bound

/-- No array type is the base of the copied types. -/
theorem fullName_array_ne (system : TypeSystem) (element : TypeRef) :
    system.fullName (.array element) ≠ "System.ValueType" := by
  intro same
  have last := congrArg (fun text => text.toList.getLast?) same
  simp [fullName, definition, TypeDef.fullName, TypeDef.named] at last

/-- Whether a method can be offered depends on types that are declared before its own. -/
theorem Precedes.isSupported_eq (precedes : system.Precedes later) (earlier : later.TakesEarlier) {method : Method}
    (declared : method ∈ system.methods type) :
    later.isSupported method.definition = system.isSupported method.definition := by
  rcases exists_index_of_mem_methods declared with ⟨index, bound, rfl, listed⟩
  rw [← precedes.definition_eq_of_lt bound] at listed
  have sameConstraint (constraint : TypeRef) (lower : constraint.rank < 2 * index) :
      ((later.definition constraint).isClass && later.fullName constraint != "System.ValueType") =
        ((system.definition constraint).isClass && system.fullName constraint != "System.ValueType") := by
    cases constraint with
    | declared place =>
        have before : place < system.types.length := by
          rw [TypeRef.rank] at lower
          omega
        rw [fullName, fullName, precedes.definition_eq_of_lt before]
    | array element =>
        rw [bne_iff_ne.mpr (later.fullName_array_ne element), bne_iff_ne.mpr (system.fullName_array_ne element)]
        rfl
  dsimp only [isSupported]
  congr 4
  funext place
  cases present : method.definition.generics[place]? with
  | none => rfl
  | some generic =>
      have lower (constraint : TypeRef) (among : constraint ∈ generic.constraints) : constraint.rank < 2 * index :=
        earlier index _ listed constraint (List.mem_append_right _
          (List.mem_flatMap.mpr ⟨generic, List.mem_of_getElem? present, among⟩))
      dsimp only [hasOnlyClassConstraints]
      congr 1
      rw [Bool.eq_iff_iff, List.all_eq_true, List.all_eq_true]
      exact forall₂_congr fun constraint among => by rw [sameConstraint constraint (lower constraint among)]

end TypeSystem

/-! ## What is collected -/

namespace ExtensionMap

variable (system : TypeSystem)

theorem methodsOf_add (extensions : ExtensionMap) (type other : TypeRef) (method : Method) :
    (extensions.add other method).methodsOf type =
      extensions.methodsOf type ++ if type = other then [method] else [] := by
  rw [methodsOf, methodsOf, add, FinMap.get?_insert]
  split
  next same => rw [same, Option.getD_some]
  next => rw [List.append_nil]

/-- The extension methods of a type are the offered methods of the containers that extend it, in order. -/
theorem methodsOf_ofContainers (containers : List TypeRef) (type : TypeRef) :
    (ofContainers system containers).methodsOf type = (containers.flatMap system.methods).filter fun method =>
      isOffered system method.definition && extendedType? system method.definition = some type := by
  have fold (methods : List Method) (start : ExtensionMap) :
      (methods.foldl (fun extensions method =>
        if isOffered system method.definition then
          (extendedType? system method.definition).elim extensions fun type => extensions.add type method
        else extensions) start).methodsOf type =
      start.methodsOf type ++ methods.filter fun method =>
        isOffered system method.definition && extendedType? system method.definition = some type := by
    induction methods generalizing start with
    | nil => rw [List.foldl_nil, List.filter_nil, List.append_nil]
    | cons method rest ih =>
        rw [List.foldl_cons, ih, List.filter_cons]
        cases isOffered system method.definition with
        | false => rfl
        | true =>
            cases extended : extendedType? system method.definition with
            | none => rfl
            | some other =>
                simp only [if_true, Option.elim_some, methodsOf_add, Bool.true_and, Option.some.injEq,
                  decide_eq_true_eq, eq_comm (a := other)]
                split <;> simp
  exact fold _ empty

theorem methodsOf_collect (registry : Registry) (type : TypeRef) :
    (collect system registry).methodsOf type =
      ((registry.extensionContainers system).flatMap system.methods).filter fun method =>
        isOffered system method.definition && extendedType? system method.definition = some type :=
  methodsOf_ofContainers system _ type

variable {system}

/-- An extension method can be offered wherever it is declared. -/
theorem CollectedIn.isSupported {extensions : ExtensionMap} (collected : extensions.CollectedIn system)
    (takes : system.TakesEarlier) {earlier : TypeSystem} (precedes : earlier.Precedes system) {type : TypeRef}
    {method : Method} (extends_ : method ∈ extensions.methodsOf type)
    (declared : method ∈ earlier.methods method.owner) : earlier.isSupported method.definition = true := by
  rcases collected with ⟨before, registry, precedesToo, rfl⟩
  have declaredThen := (declaredIn_collect before registry type method extends_).declared
  rw [methodsOf_collect, List.mem_filter, Bool.and_eq_true, isOffered, Bool.and_eq_true] at extends_
  rw [← precedes.isSupported_eq takes declared, precedesToo.isSupported_eq takes declaredThen]
  exact extends_.2.1.2

end ExtensionMap

/-! ## Methods of one container -/

/-- The method is no constructor, and is not called as an accessor or an operator if it is special. -/
def MethodDef.IsPlain (method : MethodDef) : Prop :=
  method.name ≠ ".ctor" ∧ (method.isSpecial = true →
    ∀ start ∈ ["add_", "remove_", "op_", "get_", "set_"], Text.opens start method.name = false)

instance (method : MethodDef) : Decidable method.IsPlain := inferInstanceAs (Decidable (_ ∧ _))

theorem MethodDef.IsPlain.isOrdinary {method : MethodDef} (plain : method.IsPlain) (system : TypeSystem) :
    Catalog.IsOrdinary system method := by
  refine ⟨plain.1, fun special => ?_⟩
  have unopened := plain.2 special
  have noReader : method.name ≠ "get_Item" := fun same => by
    have opens := unopened "get_" (by simp)
    rw [same] at opens
    revert opens
    decide
  have noWriter : method.name ≠ "set_Item" := fun same => by
    have opens := unopened "set_" (by simp)
    rw [same] at opens
    revert opens
    decide
  simp only [List.mem_cons, List.not_mem_nil, or_false, forall_eq_or_imp, forall_eq] at unopened
  rcases unopened with ⟨noAdder, noRemover, noOperator, noGetter, noSetter⟩
  refine ⟨?_, noAdder, noRemover, ?_, ?_, ?_⟩
  · simp [Catalog.isKeyedItemAccessor, noReader, noWriter]
  · simp [noOperator]
  · simp [noGetter]
  · simp [noSetter]

/-- The methods of a type by a name. -/
def TypeSystem.methodsBy (system : TypeSystem) (type : TypeRef) (name : String) : List Method :=
  (system.methods type).filter fun method => method.definition.name = name

/-- The extension methods of a type by a name. -/
def ExtensionMap.methodsBy (extensions : ExtensionMap) (type : TypeRef) (name : String) : List Method :=
  (extensions.methodsOf type).filter fun method => method.definition.name = name

/--
The extension methods of a type by a name are the methods of one container by that name. The type has no method of its
own by the name, and the container has no static event.
-/
structure ExtensionMap.FromContainer (system : TypeSystem) (extensions : ExtensionMap) (type container : TypeRef)
    (name : String) : Prop where
  noMethod : system.methodsBy type name = []
  owned : ∀ method ∈ extensions.methodsBy type name, method.owner = container
  every : ∀ method ∈ system.methodsBy container name, method ∈ extensions.methodsOf type
  plain : ∀ method ∈ system.methodsBy container name, method.definition.IsPlain
  noStaticEvent : ∀ event ∈ (system.definition container).events, event.name = name → event.isStatic = false

instance (system : TypeSystem) (extensions : ExtensionMap) (type container : TypeRef) (name : String) :
    Decidable (extensions.FromContainer system type container name) :=
  decidable_of_iff
    (system.methodsBy type name = [] ∧ (∀ method ∈ extensions.methodsBy type name, method.owner = container) ∧
      (∀ method ∈ system.methodsBy container name, method ∈ extensions.methodsOf type) ∧
      (∀ method ∈ system.methodsBy container name, method.definition.IsPlain) ∧
      ∀ event ∈ (system.definition container).events, event.name = name → event.isStatic = false)
    ⟨fun ⟨noMethod, owned, every, plain, noStaticEvent⟩ => ⟨noMethod, owned, every, plain, noStaticEvent⟩,
      fun ⟨noMethod, owned, every, plain, noStaticEvent⟩ => ⟨noMethod, owned, every, plain, noStaticEvent⟩⟩

/-- Where all but one of some items have nothing, what they have together is what that one has, maybe more than once. -/
theorem exists_flatMap_eq_append {α β : Type} {items : List α} {item : α} (listed : item ∈ items) (found : α → List β)
    (nothing : ∀ other ∈ items, other ≠ item → found other = []) :
    ∃ repeated, items.flatMap found = found item ++ repeated ∧ repeated ⊆ found item := by
  rcases List.eq_append_cons_of_mem listed with ⟨before, after, rfl, absent⟩
  refine ⟨after.flatMap found, ?_, fun value among => ?_⟩
  · have noneBefore : before.flatMap found = [] := List.flatMap_eq_nil_iff.mpr fun other present =>
      nothing other (List.mem_append_left _ present) fun same => absent (same ▸ present)
    rw [List.flatMap_append, noneBefore, List.nil_append, List.flatMap_cons]
  · rcases List.mem_flatMap.mp among with ⟨other, present, has⟩
    by_cases same : other = item
    · exact same ▸ has
    · rw [nothing other (List.mem_append_right _ (List.mem_cons_of_mem _ present)) same] at has
      cases has

namespace ExtensionMap.FromContainer

variable {system earlier : TypeSystem} {extensions : ExtensionMap} {type container : TypeRef} {name : String}
  {access : MemberAccess} {known : Option ExtensionMap}

theorem mem_methodsBy {method : Method} :
    method ∈ system.methodsBy type name ↔ method ∈ system.methods type ∧ method.definition.name = name := by
  rw [TypeSystem.methodsBy, List.mem_filter, decide_eq_true_eq]

/-- The extension methods are those of the container in order; if it was reached more than once they are repeated. -/
theorem methodsBy_eq (whole : extensions.FromContainer system type container name)
    (collected : extensions.CollectedIn system) (nonempty : extensions.methodsBy type name ≠ []) :
    ∃ repeated, extensions.methodsBy type name = system.methodsBy container name ++ repeated ∧
      repeated ⊆ system.methodsBy container name := by
  rcases collected with ⟨earlier, registry, precedes, rfl⟩
  let taken (method : Method) : Bool :=
    isOffered earlier method.definition && extendedType? earlier method.definition = some type
  let found (holder : TypeRef) : List Method :=
    (earlier.methods holder).filter fun method => method.definition.name = name && taken method
  have parts : (collect earlier registry).methodsBy type name =
      (registry.extensionContainers earlier).flatMap found := by
    rw [ExtensionMap.methodsBy, methodsOf_collect, List.filter_filter, List.filter_flatMap]
  have isFound {holder : TypeRef} (reached : holder ∈ registry.extensionContainers earlier) {method : Method}
      (has : method ∈ found holder) : method ∈ earlier.methods holder ∧ holder = container := by
    have declared := (List.mem_filter.mp has).1
    have joins := parts ▸ List.mem_flatMap.mpr ⟨holder, reached, has⟩
    exact ⟨declared, (earlier.owner_of_mem_methods declared).symm.trans (whole.owned method joins)⟩
  -- The container was reached, and had the methods that it has now.
  rcases List.exists_mem_of_ne_nil _ nonempty with ⟨method, joins⟩
  rcases List.mem_flatMap.mp (parts ▸ joins) with ⟨holder, reached, has⟩
  obtain ⟨declared, rfl⟩ := isFound reached has
  have same : found holder = system.methodsBy holder name := by
    rw [TypeSystem.methodsBy, precedes.methods_eq declared]
    refine List.filter_congr fun method present => ?_
    by_cases named : method.definition.name = name
    · have joins := whole.every method (mem_methodsBy.mpr ⟨precedes.mem_methods present, named⟩)
      rw [methodsOf_collect] at joins
      have isTaken : taken method = true := (List.mem_filter.mp joins).2
      rw [isTaken, Bool.and_true]
    · rw [decide_eq_false named, Bool.false_and]
  rcases exists_flatMap_eq_append reached found fun other listed different =>
    List.eq_nil_iff_forall_not_mem.mpr fun method has => different (isFound listed has).2 with ⟨repeated, split, copies⟩
  exact ⟨repeated, by rw [parts, split, same], same ▸ copies⟩

/-- A walk over the type finds the extension methods of the name, if it takes visible members. -/
theorem groupOf_type (whole : extensions.FromContainer system type container name)
    (precedes : earlier.Precedes system) :
    Catalog.groupOf earlier type access known (name, false) =
      if access.admits .visible then known.elim [] (·.methodsBy type name) else [] := by
  have noMethod (method : Method) (declared : method ∈ earlier.methods type) : method.definition.name ≠ name := by
    intro named
    have own := mem_methodsBy.mpr ⟨precedes.mem_methods declared, named⟩
    rw [whole.noMethod] at own
    cases own
  have noOwn : Catalog.offeredAs earlier type access (name, false) = [] := by
    refine List.eq_nil_iff_forall_not_mem.mpr fun method offers => ?_
    rcases Catalog.mem_offeredAs offers with ⟨declared, key⟩
    exact noMethod method declared (Prod.mk.inj key).1
  have notHidden : name ∉ Catalog.hiddenNames earlier type := fun hidden => by
    rcases Catalog.isHiddenName_iff.mp hidden with ⟨method, declared, -, named⟩
    exact noMethod method declared named
  rw [Catalog.groupOf, noOwn, List.dropWhile_nil, List.nil_append, Catalog.joinedMethods]
  cases known with
  | none => simp [Catalog.joining]
  | some map =>
      simp only [Catalog.joining, Option.elim_some, Catalog.joiningExtensions, List.filter_filter, Prod.mk.injEq,
        and_true]
      split
      next visible => simp [visible, ExtensionMap.methodsBy]
      next unseen =>
        refine List.filter_eq_nil_iff.mpr fun method _ joins => notHidden ?_
        simp only [unseen, Bool.false_or, List.contains_eq_mem, Bool.and_eq_true, decide_eq_true_eq] at joins
        exact joins.1 ▸ joins.2

/-- A walk over the container finds all its methods of the name, if it takes visible members. -/
theorem groupOf_container (whole : extensions.FromContainer system type container name)
    (collected : extensions.CollectedIn system) (takes : system.TakesEarlier) (precedes : earlier.Precedes system) :
    Catalog.groupOf earlier container access known (name, true) =
      if access.admits .visible then earlier.methodsBy container name else [] := by
  have extends_ (method : Method) (declared : method ∈ earlier.methods container)
      (named : method.definition.name = name) : method ∈ extensions.methodsOf type :=
    whole.every method (mem_methodsBy.mpr ⟨precedes.mem_methods declared, named⟩)
  have noJoined : Catalog.joinedMethods earlier container access known (name, true) = [] :=
    List.filter_eq_nil_iff.mpr fun method _ => by simp
  have notHidden : name ∉ Catalog.hiddenNames earlier container := fun hidden => by
    rcases Catalog.isHiddenName_iff.mp hidden with ⟨method, declared, isHidden, named⟩
    have visible := (collected.declaredIn type method (extends_ method declared named)).visible
    rw [isHidden] at visible
    cases visible
  have offers : Catalog.offeredAs earlier container access (name, true) =
      if access.admits .visible then earlier.methodsBy container name else [] := by
    rw [Catalog.offeredAs, Catalog.offered, Catalog.walkedMethods_eq, List.filter_filter, List.filter_filter]
    have takes (method : Method) (declared : method ∈ earlier.methods container) :
        (Catalog.hasKey (name, true) method && earlier.isSupported method.definition &&
          Catalog.takes earlier container access method) =
          (access.admits .visible && decide (method.definition.name = name)) := by
      by_cases named : method.definition.name = name
      · have extends_ := extends_ method declared named
        have shown := collected.declaredIn type method extends_
        have supported : earlier.isSupported method.definition = true := by
          refine collected.isSupported takes precedes extends_ ?_
          rwa [earlier.owner_of_mem_methods declared]
        cases access <;>
          simp [Catalog.hasKey, Catalog.takes, named, shown.isStatic, shown.visible, supported, notHidden,
            MemberAccess.admits]
      · simp [Catalog.hasKey, named]
    rw [List.filter_congr takes]
    cases access.admits .visible <;> simp [TypeSystem.methodsBy]
  have ordinary : (Catalog.offeredAs earlier container access (name, true)).dropWhile
      (fun method => ¬Catalog.IsOrdinary earlier method.definition) =
        Catalog.offeredAs earlier container access (name, true) := by
    refine List.dropWhile_eq_self_iff.mpr fun nonempty => ?_
    rcases Catalog.mem_offeredAs (List.getElem_mem nonempty) with ⟨declared, key⟩
    have plain := whole.plain _ (mem_methodsBy.mpr ⟨precedes.mem_methods declared, (Prod.mk.inj key).1⟩)
    simpa using plain.isOrdinary earlier
  rw [Catalog.groupOf, noJoined, List.append_nil, ordinary, offers]

/-- A walk that finds the name in the type takes visible members, and finds all extension methods. -/
theorem of_groupOf_type (whole : extensions.FromContainer system type container name)
    (precedes : earlier.Precedes system) (knew : known = none ∨ known = some extensions)
    (nonempty : Catalog.groupOf earlier type access known (name, false) ≠ []) :
    access.admits .visible = true ∧ known = some extensions ∧
      Catalog.groupOf earlier type access known (name, false) = extensions.methodsBy type name := by
  rw [whole.groupOf_type precedes] at nonempty ⊢
  rcases knew with rfl | rfl
  · simp at nonempty
  · cases visible : access.admits .visible with
    | false => simp [visible] at nonempty
    | true => exact ⟨rfl, rfl, rfl⟩

/-- A walk that finds the name in the container takes visible members, and finds all methods of today. -/
theorem of_groupOf_container (whole : extensions.FromContainer system type container name)
    (collected : extensions.CollectedIn system) (takes : system.TakesEarlier) (precedes : earlier.Precedes system)
    (nonempty : Catalog.groupOf earlier container access known (name, true) ≠ []) :
    access.admits .visible = true ∧ earlier.methodsBy container name = system.methodsBy container name ∧
      Catalog.groupOf earlier container access known (name, true) = earlier.methodsBy container name := by
  rw [whole.groupOf_container collected takes precedes] at nonempty ⊢
  cases visible : access.admits .visible with
  | false => simp [visible] at nonempty
  | true =>
      rw [visible, if_pos rfl] at nonempty
      rcases List.exists_mem_of_ne_nil _ nonempty with ⟨method, listed⟩
      refine ⟨rfl, ?_, rfl⟩
      rw [TypeSystem.methodsBy, TypeSystem.methodsBy, precedes.methods_eq (mem_methodsBy.mp listed).1]

end ExtensionMap.FromContainer

/-! ## The groups in the slots -/

/-- The candidate, called with the receiver as its first argument. -/
def Candidate.asExtension (candidate : Candidate) : Candidate := { candidate with isExtension := true }

/--
A group for instances has the candidates of a static group as extensions: the same ones in the same order, and maybe
some of them again.
-/
structure OverloadGroup.Lends (shared own : OverloadGroup) : Prop where
  onType : shared.shape = .onType
  onInstance : own.shape = .onInstance
  candidates : ∃ repeated, own.candidates = (shared.candidates ++ repeated).map .asExtension ∧
    repeated ⊆ shared.candidates

theorem OverloadGroup.lends_ofMethods {system later : TypeSystem} {container type : TypeRef} {name : String}
    {methods repeated : List Method} (copies : repeated ⊆ methods)
    (supported : ∀ method ∈ methods, system.isSupported method.definition = true)
    (supportedLater : ∀ method ∈ methods, later.isSupported method.definition = true)
    (extensions : ∀ method ∈ methods, method.definition.isExtension = true) :
    (ofMethods system container name .onType methods).Lends
      (ofMethods later type name .onInstance (methods ++ repeated)) := by
  have sameCandidate (method : Method) (listed : method ∈ methods) :
      candidate? later .onInstance method = (candidate? system .onType method).map .asExtension := by
    rw [candidate?, candidate?, if_pos (supported method listed), if_pos (supportedLater method listed),
      extensions method listed, Option.map_map]
    rfl
  refine ⟨rfl, rfl, repeated.filterMap (candidate? system .onType), ?_, List.filterMap_subset _ copies⟩
  have both (method : Method) (listed : method ∈ methods ++ repeated) : method ∈ methods :=
    (List.mem_append.mp listed).elim id fun again => copies again
  rw [ofMethods, ofMethods, ← List.filterMap_append, List.map_filterMap]
  exact List.filterMap_congr fun method listed => sameCandidate method (both method listed)

/-- Whether the callable is that of an event, or waits for it. -/
def Callable.servesEvent : Callable → Bool
  | .event _ _ => true
  | .placeholder member => member.kind = .event
  | _ => false

/-- What a walk found at a place of methods is a whole group, if it is not an event. -/
theorem CatalogMember.Found.eq_groupMember {system earlier : TypeSystem} {extensions known : Option ExtensionMap}
    {type : TypeRef} {access : MemberAccess} {isStatic : Bool} {name : String} {member : CatalogMember}
    (found : member.Found system extensions type (.ofMember .method isStatic, name) earlier access known)
    (noEvent : ∀ event ∈ (system.definition type).events, event.name = name → event.isStatic = isStatic →
      member ≠ ⟨event.name, event.isStatic, .event, .event event⟩) :
    Catalog.groupOf earlier type access known (name, isStatic) ≠ [] ∧
      member = Catalog.groupMember name isStatic (Catalog.groupOf earlier type access known (name, isStatic)) := by
  rw [Catalog.groupOf_eq]
  refine (Catalog.eventMember_or_group_of_mem found.listed found.there).resolve_left ?_
  rintro ⟨event, declared, -, same⟩
  rcases Catalog.kind_of_place found.there with ⟨-, sameStatic, sameName⟩
  rw [same] at sameStatic sameName
  exact noEvent event (found.precedes.mem_events declared) sameName sameStatic same

/-- No catalog lists operators among its groups. -/
theorem Catalog.isNone_ofMethodName?_of_mem {system : TypeSystem} {type : TypeRef} {access : MemberAccess}
    {known : Option ExtensionMap} {name : String} {isStatic : Bool} {methods : List Method}
    (listed : groupMember name isStatic methods ∈ (ofType system type access known).members) :
    (Operator.ofMethodName? name).isNone = true := by
  rcases members_eq system type access known with ⟨others, members, noMethod⟩
  rw [members] at listed
  have inGroups := (List.mem_append.mp listed).resolve_left fun other => noMethod _ other rfl
  exact (exists_group_of_mem inGroups).2.1

/-- A placeholder for a method stands for the group of its name. -/
theorem Host.pending?_of_groupOf {host : Host} {context : Context} {type : TypeRef} {access : MemberAccess}
    {isStatic : Bool} {name : String} (noOperator : (Operator.ofMethodName? name).isNone = true)
    (nonempty : Catalog.groupOf host.system type access (host.extensionsIn context) (name, isStatic) ≠ []) :
    host.pending? context ⟨type, .method, name, isStatic, access⟩ = some (Catalog.groupMember name isStatic
      (Catalog.groupOf host.system type access (host.extensionsIn context) (name, isStatic))) := by
  rw [pending?, Catalog.find?_method, if_pos noOperator, Catalog.get?_methodGroups_eq,
    Catalog.group?_eq_some_iff.mpr ⟨rfl, nonempty⟩, Option.map_some]

/--
A slot of methods leads to the group that its walk found, if no event of the type has taken it and a walk with the
extension methods of today finds a group as well.
-/
theorem MemberSlot.Found.leadsTo_group {host : Host} {context : Context} {extensions : ExtensionMap} {type : TypeRef}
    {isStatic : Bool} {name : String} {slot : MemberSlot} (holds : context.Collects host.system)
    (collected : context.extensions = some extensions) (merges : host.extensionsIn context = some extensions)
    (found : slot.Found host.system context.callables context.extensions type (.ofMember .method isStatic, name))
    (noEvent : ∀ event ∈ (host.system.definition type).events, event.name = name → event.isStatic = isStatic →
      ∀ callable, Registered context.callables slot.handle callable → callable.servesEvent = false)
    (stays : ∀ earlier : TypeSystem, earlier.Precedes host.system → ∀ access known, known = none ∨ known = some extensions →
      Catalog.groupOf earlier type access known (name, isStatic) ≠ [] →
      Catalog.groupOf host.system type access (some extensions) (name, isStatic) ≠ []) :
    ∃ earlier access known, earlier.Precedes host.system ∧ (known = none ∨ known = some extensions) ∧
      (∀ map, known = some map → map.DeclaredIn earlier) ∧
      Catalog.groupOf earlier type access known (name, isStatic) ≠ [] ∧
      slot.LeadsTo host context type (.ofMember .method isStatic, name)
        (.method (.ofMethods earlier type name (if isStatic then .onType else .onInstance)
          (Catalog.groupOf earlier type access known (name, isStatic)))) := by
  cases found with
  | @made earlier access known member handle found registered =>
      have isGroup := found.eq_groupMember fun event declared named sameStatic isEvent => by
        subst isEvent
        exact Bool.noConfusion (noEvent event declared named sameStatic _ registered)
      rcases isGroup with ⟨nonempty, rfl⟩
      have knew := found.knew.imp_right fun same => same.symm.trans collected
      exact ⟨earlier, access, known, found.precedes, knew, found.declared, nonempty, .made registered rfl⟩
  | @waiting earlier access known member handle found registered =>
      have isGroup := found.eq_groupMember fun event declared named sameStatic isEvent => by
        subst isEvent
        exact Bool.noConfusion (noEvent event declared named sameStatic _ registered)
      rcases isGroup with ⟨nonempty, rfl⟩
      have knew := found.knew.imp_right fun same => same.symm.trans collected
      have still := stays earlier found.precedes access known knew nonempty
      have declared (map : ExtensionMap) (same : some extensions = some map) : map.DeclaredIn host.system :=
        Option.some.inj same ▸ (holds.collected extensions collected).declaredIn
      rw [← merges] at still declared ⊢
      refine ⟨host.system, access, _, .refl _, .inr rfl, declared, still, ?_⟩
      exact .waiting registered rfl rfl (Host.pending?_of_groupOf (Catalog.isNone_ofMethodName?_of_mem found.listed) still)

/--
Where the extension methods of a type by a name are those of one container, the slots of the name in both types lead to
groups of which the group of the container lends its candidates to the other.
-/
theorem ExtensionMap.FromContainer.leadsTo {host : Host} {context : Context} {extensions : ExtensionMap}
    {type container : TypeRef} {name : String} {own shared : MemberSlot}
    (whole : extensions.FromContainer host.system type container name) (takes : host.system.TakesEarlier)
    (holds : context.Collects host.system) (collected : context.extensions = some extensions)
    (merges : host.extensionsIn context = some extensions)
    (found : own.Found host.system context.callables context.extensions type (.methods, name))
    (noEvent : ∀ callable, Registered context.callables own.handle callable → callable.servesEvent = false)
    (foundShared : shared.Found host.system context.callables context.extensions container (.classMethods, name)) :
    ∃ group lender : OverloadGroup, lender.Lends group ∧ (group.owner = type ∧ group.name = name) ∧
      (lender.owner = container ∧ lender.name = name) ∧
      own.LeadsTo host context type (.methods, name) (.method group) ∧
      shared.LeadsTo host context container (.classMethods, name) (.method lender) := by
  have methods := holds.collected extensions collected
  have noStaticEvent (event : EventDef) (declared : event ∈ (host.system.definition container).events)
      (named : event.name = name) (isStatic : event.isStatic = true) (callable : Callable)
      (_ : Registered context.callables shared.handle callable) : callable.servesEvent = false := by
    rw [whole.noStaticEvent event declared named] at isStatic
    cases isStatic
  have leads := @MemberSlot.Found.leadsTo_group host context extensions type false name own holds collected merges found
    (fun _ _ _ _ => noEvent) fun earlier precedes access known knew nonempty => by
      rcases whole.of_groupOf_type precedes knew nonempty with ⟨visible, rfl, same⟩
      rw [whole.groupOf_type (.refl _), visible]
      rwa [same] at nonempty
  have leadsShared := @MemberSlot.Found.leadsTo_group host context extensions container true name shared holds collected
    merges foundShared noStaticEvent fun earlier precedes access known _ nonempty => by
      rcases whole.of_groupOf_container methods takes precedes nonempty with ⟨visible, still, same⟩
      rw [whole.groupOf_container methods takes (.refl _), visible, ← still]
      rwa [same] at nonempty
  rcases leads with ⟨later, access, known, precedes, knew, declared, nonempty, leads⟩
  rcases leadsShared with ⟨before, accessShared, knownShared, precedesShared, -, -, nonemptyShared, leadsShared⟩
  rcases whole.of_groupOf_type precedes knew nonempty with ⟨-, rfl, same⟩
  rcases whole.of_groupOf_container methods takes precedesShared nonemptyShared with ⟨-, still, sameShared⟩
  rcases whole.methodsBy_eq methods (same ▸ nonempty) with ⟨repeated, split, copies⟩
  rw [same, split] at leads
  rw [sameShared, still] at leadsShared
  refine ⟨_, _, OverloadGroup.lends_ofMethods copies ?_ ?_ ?_, ⟨rfl, rfl⟩, ⟨rfl, rfl⟩, leads, leadsShared⟩
  · intro method listed
    refine methods.isSupported takes precedesShared (whole.every method listed) ?_
    have declaredBefore := (mem_methodsBy.mp (still ▸ listed)).1
    rwa [before.owner_of_mem_methods declaredBefore]
  · intro method listed
    have extends_ := whole.every method listed
    exact methods.isSupported takes precedes extends_ (declared extensions rfl type method extends_).declared
  · exact fun method listed => (methods.declaredIn type method (whole.every method listed)).isExtension

/-! ## What a call of either group chooses -/

namespace Context

/-- Candidates that come again later change nothing. -/
theorem firstBest_append_of_subset {ranked repeated : List (Rank × Candidate)} (copies : repeated ⊆ ranked) :
    firstBest (ranked ++ repeated) = firstBest ranked := by
  cases chosen : firstBest ranked with
  | none =>
      rw [firstBest_eq_none_iff] at chosen ⊢
      subst chosen
      exact List.append_eq_nil_iff.mpr ⟨rfl, List.subset_nil.mp copies⟩
  | some best =>
      rcases firstBest_eq_some_iff.mp chosen with ⟨front, back, rfl, worse, unbeaten⟩
      rw [List.append_assoc, List.cons_append]
      refine firstBest_of_split front (back ++ repeated) worse fun other listed => ?_
      rcases List.mem_append.mp listed with later | again
      · exact unbeaten other later
      · rcases List.mem_append.mp (copies again) with before | here
        · exact Rank.better_asymm (worse other before)
        · rcases List.mem_cons.mp here with rfl | later
          · exact Rank.not_better_self _
          · exact unbeaten other later

theorem firstBest_map (change : Candidate → Candidate) (ranked : List (Rank × Candidate)) :
    firstBest (ranked.map (Prod.map id change)) = (firstBest ranked).map (Prod.map id change) := by
  induction ranked with
  | nil => rfl
  | cons first rest ih =>
      rw [List.map_cons, firstBest, firstBest, ih]
      cases firstBest rest with
      | none => rfl
      | some best =>
          simp only [Option.map_some, Prod.map_fst, id]
          split <;> rfl

end Context

/-- With the receiver as its first argument, a call of the group chooses what a call of the static group chooses. -/
theorem OverloadGroup.Lends.choose?_eq {shared own : OverloadGroup} (lends : shared.Lends own) (system : TypeSystem)
    (context : Context) (arguments : List ScriptValue) :
    context.choose? system own arguments = (context.choose? system shared arguments).map .asExtension := by
  rcases lends with ⟨onType, onInstance, repeated, candidates, copies⟩
  have ranks (candidate : Candidate) :
      context.rank? system own arguments candidate.asExtension = context.rank? system shared arguments candidate := by
    simp [Context.rank?, Context.inputsFor, receiverCount, Candidate.asExtension, onType, onInstance]
  let ranked (candidate : Candidate) : Option (Rank × Candidate) :=
    (context.rank? system shared arguments candidate).map fun rank => (rank, candidate)
  have sameRanked : (own.candidates.filterMap fun candidate =>
      (context.rank? system own arguments candidate).map fun rank => (rank, candidate)) =
        (shared.candidates.filterMap ranked ++ repeated.filterMap ranked).map (Prod.map id .asExtension) := by
    rw [candidates, List.filterMap_map, ← List.filterMap_append, List.map_filterMap]
    refine List.filterMap_congr fun candidate _ => ?_
    simp only [Function.comp_apply, ranks, ranked, Option.map_map]
    rfl
  rw [Context.choose?, Context.choose?, sameRanked, Context.firstBest_map,
    Context.firstBest_append_of_subset (List.filterMap_subset _ copies), Option.map_map, Option.map_map]
  rfl

end ScriptBridge
