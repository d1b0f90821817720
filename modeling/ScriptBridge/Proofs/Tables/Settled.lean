import ScriptBridge.Proofs.Tables.Complete

/-!
# Settled types

Binding a type in the configured way comes to the same whatever was bound before: the
tables of the type have what its catalog lists, its own table shows what it hands out,
and the types that it needs are bound. Contexts choose no more than the numbers of
tables, callables and proxies. A type that is settled stays so while others are bound.
-/

namespace ScriptBridge

/-- Nothing has changed but callables, counts, collected extension methods, and what proxies there are. -/
structure World.Aside (before after : World) : Prop where
  keeps : KeepsCallables before.context.callables after.context.callables
  cache : after.context.cache = before.context.cache ∨
    ∃ value type, after.context.cache = (before.context.cache.represent value type).2
  rest : after =
    { before with context := { before.context with
        callables := after.context.callables
        cache := after.context.cache
        extensions := after.context.extensions
        counters := after.context.counters } }

namespace World.Aside

variable {before after : World}

theorem of_onlyRegistered (registered : before.OnlyRegistered after) : before.Aside after where
  keeps := registered.keeps
  cache := .inl (by rw [registered.rest])
  rest := by
    conv_lhs => rw [registered.rest]
    rw [registered.rest]

theorem bindings_eq (aside : before.Aside after) : after.context.bindings = before.context.bindings := by
  rw [aside.rest]

theorem binding?_eq (aside : before.Aside after) (type : TypeRef) :
    after.context.binding? type = before.context.binding? type :=
  congrArg (FinMap.get? · type) aside.bindings_eq

theorem isBound_eq (aside : before.Aside after) (type : TypeRef) :
    after.context.isBound type = before.context.isBound type :=
  congrArg Option.isSome (aside.binding?_eq type)

theorem namespaces_eq (aside : before.Aside after) : after.context.namespaces = before.context.namespaces := by
  rw [aside.rest]

theorem heap_eq (aside : before.Aside after) : after.context.heap = before.context.heap := by
  rw [aside.rest]

theorem displays (aside : before.Aside after) {type : TypeRef} {table : TableId} {shown : FinMap String HostValue}
    (displays : before.context.Displays type table shown) : after.context.Displays type table shown := by
  rcases aside.cache with same | ⟨value, carried, same⟩
  · exact displays.of_same aside.namespaces_eq aside.heap_eq same
  · exact (displays.represent value carried).of_same aside.namespaces_eq aside.heap_eq same

end World.Aside

namespace Host

/-- What a type enters into its table, in this order; the cast to an enumeration stands there as null. -/
def offers (host : Host) (type : TypeRef) (access : MemberAccess) (store : HostStore) : List (String × HostValue) :=
  host.captured type access store ++ ("UnderlyingSystemType", .type type) :: host.enumerated type

/-- The types that are bound with a type in the configured way. -/
inductive Needs (host : Host) (config : Config) (store : HostStore) (type : TypeRef) : TypeRef → Prop
  | base {base : TypeRef} (known : host.system.base? type = some base) : Needs host config store type base
  | nested {nested : TypeRef} (configured : config.bindsNested = true)
      (listed : nested ∈ host.nestedToBind type .visible) : Needs host config store type nested
  /-- The run-time type of what is handed out by a proxy. -/
  | carried {offer : String × HostValue} {carried : TypeRef} (offered : offer ∈ host.offers type config.access store)
      (proxied : offer.2.toScript? = none) (typed : store.typeOf? offer.2 = some carried) :
      Needs host config store type carried

/-- The extension methods that join in the contexts of a configuration. -/
def joined (host : Host) (config : Config) : Option ExtensionMap :=
  if config.mergesExtensions then some (.collect host.system host.registry) else none

theorem handedOut_eq_ofList (host : Host) (type : TypeRef) (access : MemberAccess) (store : HostStore) :
    host.handedOut type access store = .ofList (host.offers type access store) := by
  rw [offers, FinMap.ofList, FinMap.insertAll_append]
  rfl

theorem isSome_get?_handedOut {host : Host} {type : TypeRef} {access : MemberAccess} {store : HostStore}
    {offer : String × HostValue} (offered : offer ∈ host.offers type access store) :
    ((host.handedOut type access store).get? offer.1).isSome := by
  rw [handedOut_eq_ofList]
  rcases FinMap.exists_get?_insertAll .empty ⟨offer, offered, rfl⟩ with ⟨pair, -, -, found⟩
  exact Option.isSome_of_mem found

end Host

/-- What a context chooses when a type is bound: its table, and the handles of what is made for it. -/
structure Settlement where
  table : TableId
  filling : Filling
  constructor : Option CallableHandle
  cast : CallableHandle

/-- The binding of a type that was bound in the configured way. -/
def Settlement.binding (settlement : Settlement) (host : Host) (config : Config) (type : TypeRef) : TypeBinding :=
  { (TypeBinding.bare host.system type config.mode settlement.table).fill settlement.filling with
    constructor := settlement.constructor }

/-- A type has in a context all that it was bound with in the configured way, and nothing else in its binding. -/
structure Context.SettledBy (host : Host) (config : Config) (store : HostStore) (context : Context) (type : TypeRef)
    (settlement : Settlement) : Prop where
  bound : context.binding? type = some (settlement.binding host config type)
  makes : host.Makes type config.access config.mode (.ofType host.system type config.access (host.joined config))
    settlement.filling context.callables
  constructs : host.Constructs type settlement.constructor context.callables
  casts : host.Casts type settlement.cast context.callables
  displays : context.Displays type settlement.table
    (host.handedOutWith type config.access store (Host.castValue type settlement.cast))
  needs : ∀ next, host.Needs config store type next → context.isBound next = true

/-- A type was bound in the configured way, to the end. -/
def Context.Settled (host : Host) (config : Config) (store : HostStore) (context : Context) (type : TypeRef) : Prop :=
  ∃ settlement, context.SettledBy host config store type settlement

namespace Context.Settled

variable {host : Host} {config : Config} {store : HostStore} {before after : World} {type other : TypeRef}

/-- Where the binding of a type stays and what is displayed stays, the type stays settled. -/
theorem later {context next : Context} (settled : context.Settled host config store type)
    (bound : next.binding? type = context.binding? type) (kept : KeepsCallables context.callables next.callables)
    (grown : ∀ other, context.isBound other = true → next.isBound other = true)
    (displays : ∀ table shown, context.Displays type table shown → next.Displays type table shown) :
    next.Settled host config store type := by
  rcases settled with ⟨settlement, settled⟩
  exact ⟨settlement, bound.trans settled.bound, settled.makes.mono kept, settled.constructs.mono kept,
    fun isEnumeration => kept _ _ (settled.casts isEnumeration), displays _ _ settled.displays,
    fun needed needs => grown needed (settled.needs needed needs)⟩

theorem aside (settled : before.context.Settled host config store type) (aside : before.Aside after) :
    after.context.Settled host config store type := by
  refine settled.later (aside.binding?_eq type) aside.keeps (fun other => ?_) fun _ _ => aside.displays
  rw [aside.isBound_eq]
  exact id

theorem opened {mode : BindingMode} {table : TableId} (settled : before.context.Settled host config store type)
    (different : other ≠ type) (opened : host.Opened other mode before (.ok table, after)) :
    after.context.Settled host config store type := by
  refine settled.later ?_ ?_ (fun next bound => opened.isBound_iff.mpr (.inr bound)) fun table shown => ?_
  · cases opened with
    | opened => exact FinMap.get?_insert_of_ne _ _ different.symm
  · cases opened with
    | opened => exact .refl _
  · cases opened with
    | opened placed => exact fun displays => (displays.place placed).of_same rfl rfl rfl

theorem entered {table : TableId} (settled : before.context.Settled host config store type) (different : other ≠ type)
    (placed : before.context.namespaces.table? other = some table) (key : ScriptKey) (value : ScriptValue) :
    { before.context with heap := before.context.heap.set table key value }.Settled host config store type :=
  settled.later rfl (.refl _) (fun _ => id) fun _ _ displays => displays.writeOther different placed key value

theorem rebound (settled : before.context.Settled host config store type) (different : other ≠ type)
    (change : TypeBinding → TypeBinding) :
    (before.context.modifyBinding other change).Settled host config store type := by
  refine settled.later (binding?_modifyBinding_of_ne _ _ different.symm) ?_ (fun next => ?_) fun _ _ displays =>
    displays.modifyBinding change
  · rw [callables_modifyBinding]
    exact .refl _
  · rw [isBound_modifyBinding]
    exact id

end Context.Settled

namespace Host

open Bridge

variable {host : Host} {config : Config} {store : HostStore} {depth : Nat} {type carried : TypeRef}
  {table : TableId} {world after : World}

theorem isBound_of_ensureBoundBy (run : exec (ensureBoundBy (host.bindWithin depth) type) world = (.ok (), after)) :
    after.context.isBound type = true := by
  rw [ensureBoundBy, exec_bind_of_ok (exec_context world)] at run
  split at run
  next =>
    rcases exec_discard_eq_ok run with ⟨table, binding⟩
    exact isBound_of_bindWithin binding
  next already =>
    rcases (Prod.mk.inj run).2 with rfl
    simpa using already

/-- The run-time type of what was handed out by a proxy is bound. -/
theorem isBound_of_pushBy {value : HostValue} {shown : ScriptValue} (proxied : value.toScript? = none)
    (typed : world.store.typeOf? value = some carried)
    (run : exec (pushBy (host.bindWithin depth) value) world = (.ok shown, after)) :
    after.context.isBound carried = true := by
  rcases exec_pushBy_eq_ok run with ⟨simple, -⟩ | ⟨type, middle, -, typedSo, binding, -, rfl⟩
  · rw [proxied] at simple
    cases simple
  · rcases Option.some.inj (typedSo.symm.trans typed) with rfl
    have bound := isBound_of_ensureBoundBy binding
    exact bound

theorem isBound_of_installConstants {constants : List (String × HostValue)} {constant : String × HostValue}
    (listed : constant ∈ constants) (proxied : constant.2.toScript? = none)
    (typed : world.store.typeOf? constant.2 = some carried)
    (run : exec (installConstants (host.bindWithin depth) table constants) world = (.ok (), after)) :
    after.context.isBound carried = true := by
  have binds := @binds_bindWithin host depth
  induction constants generalizing world with
  | nil => cases listed
  | cons first rest ih =>
      rcases exec_bind_eq_ok run with ⟨_, written, handing, others⟩
      rcases exec_bind_eq_ok handing with ⟨entry, pushed, pushing, writing⟩
      have writes := (@binds_writeEntry host _ table first.1 entry).chain writing
      rcases List.mem_cons.mp listed with rfl | inRest
      · have later := writes.trans ((binds_installConstants binds table rest).chain others)
        exact isBound_of_bindSteps later (isBound_of_pushBy proxied typed pushing)
      · have steps := ((binds_pushBy binds first.2).chain pushing).trans writes
        exact ih inRest (by rw [store_eq_of_bindSteps steps, typed]) others

/-- When a type has been furnished, the run-time types of what it handed out are bound. -/
theorem isBound_of_furnish {access : MemberAccess} {mode : BindingMode} {offer : String × HostValue}
    (bound : world.context.isBound type = true) (offered : offer ∈ host.offers type access world.store)
    (proxied : offer.2.toScript? = none) (typed : world.store.typeOf? offer.2 = some carried)
    (run : exec (host.furnish (host.bindWithin depth) type access mode table) world = (.ok (), after)) :
    after.context.isBound carried = true := by
  have binds := @binds_bindWithin host depth
  have furnishes := (binds_furnish binds type access mode table).chain run
  rcases exec_bind_eq_ok run with ⟨_, installed, installing, run⟩
  rcases exec_bind_eq_ok run with ⟨marker, pushed, pushing, run⟩
  rcases exec_bind_eq_ok run with ⟨_, marked, marking, run⟩
  rcases exec_bind_eq_ok run with ⟨_, listed, listing, run⟩
  rcases exec_bind_eq_ok run with ⟨_, constructed, constructing, nesting⟩
  have pushes := (binds_pushBy binds _).chain pushing
  have rest := ((@binds_writeEntry host _ _ _ _).chain marking).trans (((binds_installEnumeration binds _ _).chain
    listing).trans (((binds_installConstructor _).chain constructing).trans
      ((binds_bindNested binds _ _ _).chain nesting)))
  rcases List.mem_append.mp offered with captured | others
  · rcases filled_of_installMembers installing with ⟨found, middle, -, handing, filled⟩
    have boundMiddle := isBound_of_installConstants captured proxied (by rw [store_withExtensions, typed]) handing
    have boundInstalled : installed.context.isBound carried = true := by
      cases filled with
      | filled registered => rw [Context.isBound_modifyBinding, registered.isBound_eq, boundMiddle]
    exact isBound_of_bindSteps (pushes.trans rest) boundInstalled
  · rcases List.mem_cons.mp others with rfl | member
    · refine isBound_of_bindSteps rest (isBound_of_pushBy proxied ?_ pushing)
      rwa [store_eq_of_bindSteps ((binds_installMembers binds type access mode).chain installing)]
    · rw [enumerated] at member
      split at member
      next =>
        -- The members of an enumeration are values of the enumeration itself.
        rcases List.mem_append.mp member with value | cast
        · rcases List.mem_map.mp value with ⟨_, -, rfl⟩
          rcases Option.some.inj typed with rfl
          exact isBound_of_bindSteps furnishes bound
        · rcases List.mem_singleton.mp cast with rfl
          cases proxied
      next => cases member

/-- What is the same throughout while types are bound in the configured way. -/
structure Configured (host : Host) (config : Config) (store : HostStore) (world : World) : Prop where
  config_eq : world.context.config = config
  store_eq : world.store = store
  extensions_eq : host.extensionsIn world.context = host.joined config
  stands : world.context.namespaces.Stands world.context.heap
  consistent : world.context.cache.Consistent

theorem Configured.of_bindSteps (configured : host.Configured config store world)
    (steps : Relation.ReflTransGen host.BindStep world after) : host.Configured config store after where
  config_eq := (config_eq_of_bindSteps steps).trans configured.config_eq
  store_eq := (store_eq_of_bindSteps steps).trans configured.store_eq
  extensions_eq := (extensionsIn_eq_of_bindSteps steps).trans configured.extensions_eq
  stands := stands_of_bindSteps steps configured.stands
  consistent := consistent_of_bindSteps steps configured.consistent

theorem configured_fresh (host : Host) (config : Config) (tag : CacheTag) (store : HostStore)
    (reports : List Report) : host.Configured config store ⟨store, .fresh config tag, reports⟩ where
  config_eq := rfl
  store_eq := rfl
  extensions_eq := rfl
  stands _ _ impossible := by cases impossible
  consistent := IdentityCache.consistent_empty tag

/-- When a type has been furnished, it is settled. -/
theorem settled_of_furnish (configured : host.Configured config store world)
    (opened : (displaying type (· = .bare host.system type config.mode table) table .empty).holds world)
    (based : ∀ base, host.system.base? type = some base → world.context.isBound base = true)
    (run : exec (host.furnish (host.bindWithin depth) type config.access config.mode table) world =
      (.ok (), after)) : after.context.Settled host config store type := by
  have furnishes := (binds_furnish (@binds_bindWithin host depth) type config.access config.mode table).chain run
  rcases complete_of_furnish rfl opened run with
    ⟨filling, constructor, cast, ⟨⟨_, bound, rfl⟩, displays⟩, makes, constructs, casts, nested⟩
  rw [configured.extensions_eq] at makes
  rw [configured.store_eq] at displays
  refine ⟨⟨table, filling, constructor, cast⟩, bound, makes, constructs, casts, displays, fun next needed => ?_⟩
  cases needed with
  | base known => exact isBound_of_bindSteps furnishes (based next known)
  | nested configuredSo listed => exact nested (by rw [configured.config_eq, configuredSo]) next listed
  | carried offered proxied typed =>
      rcases opened.1 with ⟨binding, found, -⟩
      rw [← configured.store_eq] at offered typed
      exact isBound_of_furnish (Option.isSome_of_mem found) offered proxied typed run

end Host

end ScriptBridge
