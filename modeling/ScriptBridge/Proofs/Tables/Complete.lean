import ScriptBridge.Proofs.Steps.Operations
import ScriptBridge.Proofs.Tables.Accounting
import ScriptBridge.Proofs.Tables.Entries
import ScriptBridge.Proofs.Tables.Wiring

/-!
# Complete bindings

A type that was not bound and is bound to the end has all that belongs to it: every
member that its catalog lists has a slot, its table shows what was handed out, its
constructor is registered, and its base and its nested types are bound too. The same
goes for hidden members once they have been shown to the end.
-/

namespace ScriptBridge

/-- All that a catalog lists is in the tables of the binding. -/
structure TypeBinding.Has (binding : TypeBinding) (catalog : Catalog) : Prop where
  slots : ∀ member ∈ catalog.members, (binding.slots.get? member.place).isSome
  operators : ∀ entry ∈ catalog.operators.entries, (binding.operators.get? entry.1).isSome
  items : catalog.indexers ≠ [] → binding.itemGetter.isSome ∧ binding.itemSetter.isSome

namespace TypeBinding.Has

variable {earlier later : TypeBinding} {catalog : Catalog}

theorem continues (has : earlier.Has catalog) (continues : earlier.Continues later) : later.Has catalog where
  slots member listed := continues.slots _ (has.slots member listed)
  operators entry listed := continues.operators _ (has.operators entry listed)
  items some := (has.items some).imp continues.itemGetter continues.itemSetter

/-- What was made for a catalog has all that the catalog lists. -/
theorem of_makes {host : Host} {type : TypeRef} {access : MemberAccess} {mode : BindingMode} {filling : Filling}
    {callables : Array Callable} (makes : host.Makes type access mode catalog filling callables)
    (binding : TypeBinding) : (binding.fill filling).Has catalog where
  slots member listed := by
    rcases exists_value_of_forall₂ makes.slots listed with ⟨made, present, same, -⟩
    rcases FinMap.exists_get?_insertAll binding.slots ⟨made, present, same⟩ with ⟨pair, -, -, found⟩
    exact Option.isSome_iff_exists.mpr ⟨pair.2, found⟩
  operators entry listed := by
    rcases exists_value_of_forall₂ makes.operators listed with ⟨made, present, same, -⟩
    rcases FinMap.exists_get?_insertAll binding.operators ⟨made, present, same⟩ with ⟨pair, -, -, found⟩
    exact Option.isSome_iff_exists.mpr ⟨pair.2, found⟩
  items some := by
    rcases makes.items with ⟨none, -⟩ | ⟨-, getter, setter, same, -, -⟩
    · exact absurd none some
    · simp [TypeBinding.fill, same]

end TypeBinding.Has

namespace Host

open Bridge

/-- The constants of a type that a walk takes, with the values that a store has for them. -/
def captured (host : Host) (type : TypeRef) (access : MemberAccess) (store : HostStore) :
    List (String × HostValue) :=
  (Catalog.ofType host.system type access none).constants.map fun constant =>
    (constant.1, constantValue store constant.2)

/-- The members of an enumeration; the name of the cast to it is that of no value. -/
def enumerated (host : Host) (type : TypeRef) : List (String × HostValue) :=
  if (host.definition type).isEnumeration then
    ((host.definition type).enumMembers.map fun member => (member.1, .enumeration type member.2)) ++
      [("__CastFrom", .null)]
  else []

/-- What a type hands out when it is bound, by name: of equal names the last is written over the others. -/
def handedOut (host : Host) (type : TypeRef) (access : MemberAccess) (store : HostStore) :
    FinMap String HostValue :=
  ((FinMap.ofList (host.captured type access store)).insert "UnderlyingSystemType" (.type type)).insertAll
    (host.enumerated type)

/-- The host value of a function that casts to a type: a delegate that calls it. -/
def castValue (type : TypeRef) (cast : CallableHandle) : HostValue := .delegate ⟨type, [cast.target]⟩

/-- The members of an enumeration, and a value for the cast to it. -/
def enumeratedWith (host : Host) (type : TypeRef) (cast : HostValue) : List (String × HostValue) :=
  if (host.definition type).isEnumeration then
    ((host.definition type).enumMembers.map fun member => (member.1, .enumeration type member.2)) ++
      [("__CastFrom", cast)]
  else []

/-- What a type hands out, with a value for the cast to it if it is an enumeration. -/
def handedOutWith (host : Host) (type : TypeRef) (access : MemberAccess) (store : HostStore) (cast : HostValue) :
    FinMap String HostValue :=
  ((FinMap.ofList (host.captured type access store)).insert "UnderlyingSystemType" (.type type)).insertAll
    (host.enumeratedWith type cast)

theorem handedOut_eq (host : Host) (type : TypeRef) (access : MemberAccess) (store : HostStore) :
    host.handedOut type access store = host.handedOutWith type access store .null := rfl

/-- The cast to an enumeration is registered. -/
def Casts (host : Host) (type : TypeRef) (cast : CallableHandle) (callables : Array Callable) : Prop :=
  (host.definition type).isEnumeration = true → Registered callables cast (.enumCast type)

/-- With another value for the cast, no other value changes and no name. -/
theorem rel_handedOutWith (host : Host) (type : TypeRef) (access : MemberAccess) (store : HostStore)
    (cast otherCast : HostValue) (name : String) :
    Option.Rel
      (fun value otherValue => value = otherValue ∨
        (host.definition type).isEnumeration = true ∧ value = cast ∧ otherValue = otherCast)
      ((host.handedOutWith type access store cast).get? name)
      ((host.handedOutWith type access store otherCast).get? name) := by
  refine @FinMap.rel_insertAll _ _ _ _ (fun _ value otherValue => value = otherValue ∨
    (host.definition type).isEnumeration = true ∧ value = cast ∧ otherValue = otherCast) _ _ ?_ _ _ (fun name => ?_)
    name
  · rw [enumeratedWith, enumeratedWith]
    split
    next isEnumeration =>
      exact List.rel_append (List.forall₂_same.mpr fun _ _ => ⟨rfl, .inl rfl⟩)
        (.cons ⟨rfl, .inr ⟨isEnumeration, rfl, rfl⟩⟩ .nil)
    next => exact .nil
  · exact FinMap.rel_refl fun _ => .inl rfl

theorem isSome_handedOutWith (host : Host) (type : TypeRef) (access : MemberAccess) (store : HostStore)
    (cast otherCast : HostValue) (name : String) :
    ((host.handedOutWith type access store cast).get? name).isSome =
      ((host.handedOutWith type access store otherCast).get? name).isSome := by
  exact FinMap.isSome_eq_of_rel (host.rel_handedOutWith type access store cast otherCast name)

/-- A type has no constructor, or the one that is registered for it. -/
def Constructs (host : Host) (type : TypeRef) (constructor : Option CallableHandle)
    (callables : Array Callable) : Prop :=
  match host.constructorCallable? type with
  | none => constructor = none
  | some callable => ∃ handle, constructor = some handle ∧ Registered callables handle callable

theorem Constructs.mono {host : Host} {type : TypeRef} {constructor : Option CallableHandle}
    {callables more : Array Callable} (constructs : host.Constructs type constructor callables)
    (kept : KeepsCallables callables more) : host.Constructs type constructor more := by
  rw [Constructs] at constructs ⊢
  split at constructs
  next => exact constructs
  next callable =>
    rcases constructs with ⟨handle, same, registered⟩
    exact ⟨handle, same, kept _ _ registered⟩

variable {host : Host} {type other : TypeRef} {access : MemberAccess} {mode : BindingMode} {table : TableId}
  {good : TypeBinding → Prop} {shown : FinMap String HostValue} {binding : TypeBinding} {depth : Nat}
  {world after : World}

theorem displaying_installMembers (holds : (displaying type (· = binding) table shown).holds world)
    (run : exec (host.installMembers (host.bindWithin depth) type access mode) world = (.ok (), after)) :
    ∃ filling,
      (displaying type (· = binding.fill filling) table
        (shown.insertAll (host.captured type access world.store))).holds after ∧
      host.Makes type access mode (.ofType host.system type access (host.extensionsIn world.context)) filling
        after.context.callables := by
  rcases boundAs_installMembers holds.1 run with ⟨filling, bound, makes⟩
  rcases filled_of_installMembers run with ⟨known, middle, placed, handing, filled⟩
  rw [holds.2.placed] at placed
  rcases Option.some.inj placed with rfl
  have started : (displaying type (· = binding) table shown).holds (host.withExtensions world) := by
    refine ⟨boundAs_of_bindings_eq (host.bindings_withExtensions world) holds.1, ?_⟩
    rcases host.withExtensions_eq world with same | ⟨-, same⟩
    · rw [same]
      exact holds.2
    · rw [same]
      exact holds.2.of_same rfl rfl rfl
  have displays := (displaying_installConstants started handing).2
  exact ⟨filling, ⟨bound, displays_filled displays filled⟩, makes⟩

/-- A function is shown by the delegate that calls it. -/
theorem shows_function (cache : IdentityCache) (type : TypeRef) (handle : CallableHandle) :
    cache.Shows (.function handle) (castValue type handle) := by
  simp [IdentityCache.Shows, castValue, HostValue.toScript?]

theorem displaying_installEnumeration (holds : (displaying type good table shown).holds world)
    (run : exec (host.installEnumeration (host.bindWithin depth) type table) world = (.ok (), after)) :
    ∃ cast, (displaying type good table (shown.insertAll (host.enumeratedWith type (castValue type cast)))).holds after ∧
      host.Casts type cast after.context.callables := by
  rw [installEnumeration] at run
  simp only [enumeratedWith, Casts]
  split at run
  next isEnumeration =>
    simp only [if_pos isEnumeration, FinMap.insertAll_append]
    rcases exec_bind_eq_ok run with ⟨_, listed, listing, casting⟩
    rcases exec_bind_eq_ok casting with ⟨cast, registered, registering, writing⟩
    have handing : exec (installConstants (host.bindWithin depth) table
        ((host.definition type).enumMembers.map fun member => (member.1, .enumeration type member.2))) world =
          (.ok (), listed) := by
      rw [installConstants, List.forM_eq_forM, List.forM_map]
      exact listing
    rcases displaying_installConstants holds handing with ⟨bound, displays⟩
    rcases registers_register (.enumCast type) listed with ⟨only, made⟩
    rw [registering] at only made
    rcases (Prod.mk.inj writing).2 with rfl
    refine ⟨cast, ⟨boundAs_of_bindings_eq only.bindings_eq bound, ?_⟩, fun _ => made cast rfl⟩
    exact (displays_onlyRegistered displays only).write (shows_function _ type cast) "__CastFrom"
  next none =>
    rcases (Prod.mk.inj run).2 with rfl
    exact ⟨⟨0⟩, by rwa [if_neg none], fun isEnumeration => absurd isEnumeration none⟩

theorem displaying_installConstructor (holds : (displaying type (· = binding) table shown).holds world)
    (without : binding.constructor = none) (run : exec (host.installConstructor type) world = (.ok (), after)) :
    ∃ constructor,
      (displaying type (· = { binding with constructor := constructor }) table shown).holds after ∧
      host.Constructs type constructor after.context.callables := by
  have constructed := host.constructed_installConstructor type world
  rw [run] at constructed
  have displays := displays_constructed holds.2 constructed
  cases constructed with
  | absent unconstructible =>
      refine ⟨none, ⟨?_, displays⟩, by rw [Constructs, unconstructible]⟩
      rw [← without]
      exact holds.1
  | @constructed callable handle middle registered isBound given made =>
      refine ⟨some handle, ⟨?_, displays⟩, ?_⟩
      · rcases holds.1 with ⟨found, bound, rfl⟩
        refine ⟨_, ?_, rfl⟩
        have unchanged : middle.context.binding? type = some found := by
          rwa [Context.binding?, registered.bindings_eq]
        rw [Context.binding?_modifyBinding, if_pos rfl, unchanged, Option.map_some]
      · rw [Constructs, given]
        exact ⟨handle, rfl, by rwa [Context.callables_modifyBinding]⟩

/-- Binding visible nested types leaves a type that is bound alone, and in the end they are bound. -/
theorem displaying_bindNested (holds : (displaying type good table shown).holds world)
    (run : exec (host.bindNested (host.bindWithin depth) other access mode) world = (.ok (), after)) :
    (displaying type good table shown).holds after ∧
      (world.context.config.bindsNested = true →
        ∀ nested ∈ host.nestedToBind other .visible, after.context.isBound nested = true) := by
  rw [bindNested, exec_bind_of_ok (exec_context world)] at run
  split at run
  next =>
    have keeps : (displaying type good table shown).KeptBy ((host.nestedToBind other .visible).forM fun nested =>
        discard (host.bindWithin depth nested access mode)) :=
      .forM _ fun nested _ => .discard (keptBy_bindWithin_displaying depth nested access mode)
    have reached : ∀ nested ∈ host.nestedToBind other .visible,
        (Invariant.boundAs nested fun _ => True).holds after := by
      refine Invariant.KeptBy.holds_of_forM (fun nested _ before finish run => ?_)
        (fun _ _ _ _ => .discard (keptBy_bindWithin_boundAs _ _ _ _)) run
      rcases exec_discard_eq_ok run with ⟨table, binding⟩
      rcases Option.isSome_iff_exists.mp (isBound_of_bindWithin binding) with ⟨found, bound⟩
      exact ⟨found, bound, trivial⟩
    refine ⟨keeps.holds_of_ok holds run, fun _ nested listed => ?_⟩
    rcases reached nested listed with ⟨found, bound, -⟩
    exact Option.isSome_iff_exists.mpr ⟨found, bound⟩
  next unconfigured =>
    rcases (Prod.mk.inj run).2 with rfl
    exact ⟨holds, fun configured => absurd configured unconfigured⟩

/-- All that belongs to a type is there when it has been bound. -/
structure Complete (host : Host) (type : TypeRef) (access : MemberAccess) (mode : BindingMode) (table : TableId)
    (before after : World) : Prop where
  bound : ∃ binding, after.context.binding? type = some binding ∧ binding.classTable = table ∧
    binding.mode = mode ∧ binding.Has (.ofType host.system type access (host.extensionsIn before.context)) ∧
    host.Constructs type binding.constructor after.context.callables
  /-- The table shows the constants of the type, its marker, and its members if it is an enumeration. -/
  displays : ∀ name value, (host.handedOut type access before.store).get? name = some value →
    value.isNull = false → after.context.cache.Shows (after.context.heap.get table (.string name)) value
  base : ∀ base, host.system.base? type = some base → after.context.isBound base = true
  nested : before.context.config.bindsNested = true →
    ∀ nested ∈ host.nestedToBind type .visible, after.context.isBound nested = true

theorem isBound_of_bindBase {base : TypeRef}
    (run : exec (host.bindBase (host.bindWithin depth) type access mode) world = (.ok (), after))
    (known : host.system.base? type = some base) : after.context.isBound base = true := by
  rw [bindBase, known] at run
  rcases exec_discard_eq_ok run with ⟨table, binding⟩
  exact isBound_of_bindWithin binding

/-- What furnishing a type whose binding was opened leads to. -/
theorem complete_of_furnish {binding : TypeBinding} (without : binding.constructor = none)
    (holds : (displaying type (· = binding) table .empty).holds world)
    (run : exec (host.furnish (host.bindWithin depth) type access mode table) world = (.ok (), after)) :
    ∃ filling constructor cast,
      (displaying type (· = { binding.fill filling with constructor := constructor }) table
        (host.handedOutWith type access world.store (castValue type cast))).holds after ∧
      host.Makes type access mode (.ofType host.system type access (host.extensionsIn world.context)) filling
        after.context.callables ∧
      host.Constructs type constructor after.context.callables ∧
      host.Casts type cast after.context.callables ∧
      (world.context.config.bindsNested = true →
        ∀ nested ∈ host.nestedToBind type .visible, after.context.isBound nested = true) := by
  rcases exec_bind_eq_ok run with ⟨_, installed, installing, run⟩
  rcases exec_bind_eq_ok run with ⟨marker, pushed, pushing, run⟩
  rcases exec_bind_eq_ok run with ⟨_, marked, marking, run⟩
  rcases exec_bind_eq_ok run with ⟨_, listed, listing, run⟩
  rcases exec_bind_eq_ok run with ⟨_, constructed, constructing, nesting⟩
  rcases displaying_installMembers holds installing with ⟨filling, filled, makes⟩
  have withMarker := displaying_handOut filled pushing marking
  rcases displaying_installEnumeration withMarker listing with ⟨cast, withMembers, casts⟩
  rcases displaying_installConstructor withMembers without constructing with ⟨constructor, withConstructor, constructs⟩
  rcases displaying_bindNested withConstructor nesting with ⟨displayed, nested⟩
  have binds := @binds_bindWithin host depth
  have marks := ((binds_pushBy binds _).chain pushing).trans ((binds_writeEntry _ _ _).chain marking)
  have lists := (binds_installEnumeration binds _ _).chain listing
  have constructsHere := (binds_installConstructor _).chain constructing
  have nests := (binds_bindNested binds _ _ _).chain nesting
  have keptLast := keepsCallables_of_bindSteps nests
  have keptSince := (keepsCallables_of_bindSteps constructsHere).trans keptLast
  refine ⟨filling, constructor, cast, displayed, ?_, constructs.mono keptLast, fun enumeration => ?_,
    fun configured => nested ?_⟩
  · exact makes.mono ((keepsCallables_of_bindSteps (marks.trans lists)).trans keptSince)
  · exact keptSince _ _ (casts enumeration)
  · have steps := ((binds_installMembers binds _ _ _).chain installing).trans (marks.trans (lists.trans constructsHere))
    rwa [config_eq_of_bindSteps steps]

theorem stands_of_bindSteps (steps : Relation.ReflTransGen host.BindStep world after)
    (stands : world.context.namespaces.Stands world.context.heap) :
    after.context.namespaces.Stands after.context.heap := by
  induction steps with
  | refl => exact stands
  | @tail middle after _ step ih =>
      cases step with
      | place other mode made namespaces heap opened => exact ih.place opened
      | writeEntry id name value => exact ih.set id _ value
      | rebind other change =>
          rw [Context.modifyBinding_eq]
          exact ih
      | _ => exact ih

theorem consistent_of_bindSteps (steps : Relation.ReflTransGen host.BindStep world after)
    (consistent : world.context.cache.Consistent) : after.context.cache.Consistent := by
  rcases requests_of_steps (Relation.ReflTransGen.mono (fun _ _ => .bind) _ _ steps) with ⟨requests, asked⟩
  exact asked ▸ consistent.afterAll requests

/-- When a type that was not bound has been bound with success, it is complete. -/
theorem complete_of_bindWithin (stands : world.context.namespaces.Stands world.context.heap)
    (consistent : world.context.cache.Consistent) (unbound : world.context.isBound type = false)
    (run : exec (host.bindWithin depth type access mode) world = (.ok table, after)) :
    host.Complete type access mode table world after := by
  rcases exec_bindWithin_eq_ok run with
    ⟨binding, bound, -⟩ | ⟨-, depth, based, opened, furnished, rfl, basing, opening, furnishing, rfl⟩
  · rw [Context.isBound, bound] at unbound
    cases unbound
  · have binds := @binds_bindWithin host depth
    have opens := (binds_openBinding type mode).chain opening
    have started := ((binds_bindBase binds type access mode).chain basing).trans opens
    have rest := opens.trans ((binds_furnish binds type access mode table).chain furnishing)
    have openedHere := opening ▸ host.opened_openBinding type mode based
    -- Whatever binding the base has made of the type, it starts again from a bare binding here.
    have empty : (displaying type (· = .bare host.system type mode table) table .empty).holds opened := by
      have based := (binds_bindBase binds type access mode).chain basing
      exact displaying_of_opened (stands_of_bindSteps based stands) (consistent_of_bindSteps based consistent)
        openedHere
    rcases complete_of_furnish rfl empty furnishing with
      ⟨filling, constructor, cast, ⟨⟨_, bound, rfl⟩, displays⟩, makes, constructs, -, nested⟩
    rw [extensionsIn_eq_of_bindSteps started] at makes
    rw [store_eq_of_bindSteps started] at displays
    rw [config_eq_of_bindSteps started] at nested
    have has := TypeBinding.Has.of_makes makes (.bare host.system type mode table)
    refine ⟨⟨_, bound, rfl, rfl, { has with }, constructs⟩, fun name value listed present => ?_, fun base known => ?_,
      nested⟩
    · have same := host.rel_handedOutWith type access world.store .null (castValue type cast) name
      rw [← handedOut_eq, listed] at same
      generalize shown : (host.handedOutWith type access world.store (castValue type cast)).get? name = found at same
      cases same with
      | some related =>
          rcases related with rfl | ⟨-, rfl, -⟩
          · exact displays.entries name value shown present
          · cases present
    · have baseBound := isBound_of_bindSteps rest (isBound_of_bindBase basing known)
      exact baseBound

/-! ## Types that cannot be bound -/

/-- Every type that has become bound since the start has its base bound. -/
def grounding (host : Host) (start : World) : Invariant where
  holds world := ∀ type base, world.context.isBound type = true → start.context.isBound type = false →
    host.system.base? type = some base → world.context.isBound base = true
  excuses := fun _ => False

/-- Binding a type binds its base first. -/
theorem keptBy_bindWithin_grounding (start : World) (depth : Nat) (type : TypeRef) (access : MemberAccess)
    (mode : BindingMode) : (host.grounding start).KeptBy (host.bindWithin depth type access mode) := by
  have unchanged : ∀ {before after : World}, before.SameBound after → (host.grounding start).holds before →
      (host.grounding start).holds after := by
    intro before after same holds type base bound fresh known
    exact (same.isBound base).trans (holds type base ((same.isBound type).symm.trans bound) fresh known)
  induction depth generalizing type access mode with
  | zero => exact .throw _
  | succ depth ih =>
      intro world holds
      rw [bindWithin, exec_bind_of_ok (exec_context world)]
      cases bound : world.context.binding? type with
      | some present => exact .inl holds
      | none =>
          have others := BindsOthers.of_all (binds_bindWithin depth) ih type
          dsimp only
          rw [bindAnew_eq]
          refine (others.bindBase access mode world holds).bind fun _ based basing reached => ?_
          have openedHere := host.opened_openBinding type mode based
          have begun : (host.grounding start).holds (exec (host.openBinding type mode) based).2 := by
            cases run : exec (host.openBinding type mode) based with
            | mk result opened =>
                rw [run] at openedHere
                cases result with
                | error error =>
                    cases openedHere
                    exact reached
                | ok table =>
                    intro other base isBound fresh known
                    rw [openedHere.isBound_iff] at isBound ⊢
                    rcases isBound with rfl | before
                    · exact .inr (isBound_of_bindBase basing known)
                    · exact .inr (reached other base before fresh known)
          refine Invariant.Arrives.bind (.inl begun) fun table opened opening begun => ?_
          rw [opening] at openedHere
          have furnished := (furnishes_of_sameBound unchanged type).furnish others access mode table opened
            ⟨begun, openedHere.placed⟩
          refine (arrives_of_placing furnished).bind fun _ last _ holds => ?_
          exact Invariant.KeptBy.bind (.modifyContext fun _ => id) (fun _ => .pure _) last holds

/-- A type that could not be bound is not bound unless its base is. -/
theorem isBound_eq_false_of_base {result : Except BindError TableId} {base : TypeRef}
    (unbound : world.context.isBound type = false)
    (run : exec (host.bindWith type access mode) world = (result, after))
    (known : host.system.base? type = some base) (without : after.context.isBound base = false) :
    after.context.isBound type = false := by
  rw [Bool.eq_false_iff]
  intro bound
  have start : (host.grounding world).holds world := fun other _ already fresh _ => by
    rw [already] at fresh
    cases fresh
  have grounded := (keptBy_bindWithin_grounding world host.bindingDepth type access mode world start).holds fun _ => id
  rw [show exec (host.bindWithin host.bindingDepth type access mode) world = (result, after) from run] at grounded
  rw [grounded type base bound unbound known] at without
  cases without

/-- Binding types changes no binding of a type that is bound, whether it succeeds or fails. -/
theorem binding?_of_bindWith (bound : world.context.binding? type = some binding) (other : TypeRef)
    (access : MemberAccess) (mode : BindingMode) :
    (exec (host.bindWith other access mode) world).2.context.binding? type = some binding := by
  have kept : (Invariant.boundAs type (· = binding)).KeptBy (host.bindWith other access mode) :=
    keptBy_bindWithin_boundAs _ other access mode
  rcases (kept world ⟨binding, bound, rfl⟩).holds fun _ => id with ⟨_, stays, rfl⟩
  exact stays

theorem exec_bindWith_of_bound (bound : world.context.binding? type = some binding) (access : MemberAccess)
    (mode : BindingMode) : exec (host.bindWith type access mode) world = (.ok binding.classTable, world) := by
  have positive : 0 < host.bindingDepth := Nat.mul_pos (Nat.succ_pos _) (Nat.succ_pos _)
  rcases Nat.exists_eq_add_one.mpr positive with ⟨depth, deep⟩
  rw [bindWith, deep, bindWithin, exec_bind_of_ok (exec_context world), bound]
  rfl

/-! ## Hidden members -/

/-- What showing the hidden members of a bound type to the end adds to it. -/
structure ShownWhole (host : Host) (type : TypeRef) (binding : TypeBinding) (before after : World) : Prop where
  shown : ∃ next, after.context.binding? type = some next ∧ binding.Continues next ∧ next.showsHidden = true ∧
    next.Has (.ofType host.system type .hiddenOnly (host.extensionsIn before.context))
  displays : ∀ name value, (FinMap.ofList (host.captured type .hiddenOnly before.store)).get? name = some value →
    value.isNull = false →
    after.context.cache.Shows (after.context.heap.get binding.classTable (.string name)) value
  nested : ∀ nested ∈ host.nestedToBind type .hidden, ∃ found,
    after.context.binding? nested = some found ∧ found.showsHidden = true

theorem showsHidden_of_showHiddenWithin (run : exec (host.showHiddenWithin depth type) world = (.ok (), after)) :
    (Invariant.boundAs type (·.showsHidden = true)).holds after := by
  cases depth with
  | zero => cases (Prod.mk.inj run).1
  | succ depth =>
      cases bound : world.context.binding? type with
      | none =>
          rw [showHiddenWithin, exec_bind_of_ok (exec_context world), bound] at run
          cases (Prod.mk.inj run).1
      | some binding =>
          cases shows : binding.showsHidden with
          | false =>
              rcases binding?_of_showHiddenWithin bound shows run with ⟨filling, boundAfter, -⟩
              exact ⟨_, boundAfter, rfl⟩
          | true =>
              rw [showHiddenWithin, exec_bind_of_ok (exec_context world), bound] at run
              dsimp only at run
              rw [shows, if_pos rfl] at run
              rcases (Prod.mk.inj run).2 with rfl
              exact ⟨binding, bound, shows⟩

theorem showsHidden_of_showNested (run : exec (host.showNested depth type mode) world = (.ok (), after)) :
    ∀ nested ∈ host.nestedToBind type .hidden, (Invariant.boundAs nested (·.showsHidden = true)).holds after := by
  refine Invariant.KeptBy.holds_of_forM (fun nested _ before finish run => ?_) (fun nested _ other _ => ?_) run
  · rw [exec_bind_of_ok (exec_context before)] at run
    rcases exec_bind_eq_ok run with ⟨_, bound, -, showing⟩
    exact showsHidden_of_showHiddenWithin showing
  · refine .bind .context fun _ => .bind (.discard (keptBy_bindWithin_boundAs _ _ _ _)) fun _ => ?_
    refine keptBy_showHiddenWithin_boundAs (fun found shows hides => ?_) (fun _ _ => rfl) depth other
    rw [shows] at hides
    cases hides

/-- When the hidden members of a bound type have been shown with success, they are all there. -/
theorem shownWhole_of_showHidden (wired : world.context.Wired host.system)
    (consistent : world.context.cache.Consistent) (bound : world.context.binding? type = some binding)
    (hides : binding.showsHidden = false) (run : exec (host.showHidden type) world = (.ok (), after)) :
    host.ShownWhole type binding world after := by
  rcases binding?_of_showHiddenWithin bound hides run with ⟨filling, boundAfter, makes⟩
  rcases exec_showHiddenWithin_eq_ok bound hides run with ⟨installed, installing, nesting⟩
  have started : (displaying type (· = binding) binding.classTable .empty).holds world :=
    ⟨⟨binding, bound, rfl⟩, .nothing (wired.placed type binding bound) wired.stands consistent⟩
  rcases displaying_installMembers started installing with ⟨_, ⟨boundInstalled, displays⟩, -⟩
  have noted : (displaying type (·.showsHidden = true) binding.classTable
      (.ofList (host.captured type .hiddenOnly world.store))).holds
        { installed with context := installed.context.modifyBinding type fun binding =>
          { binding with showsHidden := true } } := by
    refine ⟨?_, displays.modifyBinding _⟩
    rcases boundInstalled with ⟨found, present, -⟩
    refine ⟨{ found with showsHidden := true }, ?_, rfl⟩
    rw [Context.binding?_modifyBinding, if_pos rfl, present, Option.map_some]
  have keeps : (displaying type (·.showsHidden = true) binding.classTable
      (.ofList (host.captured type .hiddenOnly world.store))).KeptBy (host.showNested type.rank type binding.mode) :=
    keptBy_showNested (keptBy_bindWithin_displaying _) keptBy_showHiddenWithin_displaying _ _ _
  refine ⟨⟨_, boundAfter, ?_, rfl, { TypeBinding.Has.of_makes makes binding with }⟩, ?_,
    showsHidden_of_showNested nesting⟩
  · exact ((TypeBinding.Continues.refl binding).fill hides filling).trans (.shown _)
  · exact (keeps.holds_of_ok noted nesting).2.entries

end Host

end ScriptBridge
