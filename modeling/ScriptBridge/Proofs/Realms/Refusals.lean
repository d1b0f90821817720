import ScriptBridge.Proofs.Natives.Refused
import ScriptBridge.Proofs.Realms.Tables
import ScriptBridge.Proofs.Steps.Changes

/-!
# Refusals in every run

Writes, constructor calls and calls of members that are refused have no effect on the
host. And no write is lost: a key of an instance that nothing along the chain of its
type takes is refused as well.
-/

namespace ScriptBridge

open Bridge

/-- The indexers with a setter that are asked to take a write. -/
def Context.settableItems (context : Context) (binding : TypeBinding) : List PropertyDef :=
  match binding.itemSetter.bind context.callable? with
  | some (.itemSetter _ properties) => properties.filter fun property => property.setter.isSome
  | _ => []

/-- A binding takes no write at a key: nothing is set by that name, at that position, or through an indexer. -/
structure TypeBinding.Ignores (host : Host) (context : Context) (type : TypeRef) (value : HostValue)
    (key : ScriptValue) (binding : TypeBinding) : Prop where
  setters : ∀ name, key = .string name → binding.slot? .setters name = none
  elements : value.asObject?.isSome = true → type.element?.isSome = true → key.asInteger? = none
  indexers : ∀ property ∈ context.settableItems binding, ∀ index, Host.keyType? property = some index →
    context.fits host.system key index = false

/-- A number names no setter, so only elements and indexers have to be looked at. -/
theorem TypeBinding.ignores_of_all {host : Host} {context : Context} {chain : List TypeRef} {value : HostValue} {number : Int64}
    (all : (chain.all fun type => type.element?.isNone &&
      (context.binding? type).all fun binding => (context.settableItems binding).all fun property =>
        (Host.keyType? property).all fun index => !context.fits host.system (.integer number) index) = true) :
    ∀ type ∈ chain, ∀ binding, context.binding? type = some binding →
      binding.Ignores host context type value (.integer number) := by
  intro type above binding bound
  rcases Bool.and_eq_true_iff.mp (List.all_eq_true.mp all type above) with ⟨noArray, foreign⟩
  rw [bound, Option.all_some] at foreign
  refine ⟨fun _ impossible => (by cases impossible), fun _ isArray => ?_, fun property listed index takes => ?_⟩
  · rw [Option.isNone_iff_eq_none.mp noArray] at isArray
    cases isArray
  · have each := List.all_eq_true.mp foreign property listed
    rw [takes, Option.all_some] at each
    simpa using each

/-- Names of a bound type are looked up along its lineage. -/
theorem Context.mem_lineage_of_lookupChain {system : TypeSystem} {context : Context} (wired : context.Wired system)
    {derived type : TypeRef} (bound : context.isBound derived = true)
    (above : type ∈ context.lookupChain system derived) : type ∈ system.lineage derived := by
  rcases Option.isSome_iff_exists.mp bound with ⟨binding, found⟩
  rw [lookupChain, found] at above
  rcases List.mem_cons.mp above with rfl | listed
  · exact List.mem_cons_self
  · exact List.mem_cons_of_mem _ ((wired.bindings _ _ found).ancestors type listed)

/-- An instance fits the type of its proxy and the types above it. -/
theorem Context.fits_of_lookupChain {system : TypeSystem} {context : Context} (wired : context.Wired system)
    {proxy : Proxy} {value : HostValue} (live : context.cache.resolve? proxy = some value)
    (bound : context.isBound proxy.type = true) {type : TypeRef}
    (above : type ∈ context.lookupChain system proxy.type) : context.fits system (.proxy proxy) type = true := by
  have assignable : system.isAssignable proxy.type type = true := by
    have inherited := mem_lineage_of_lookupChain wired bound above
    have direct : system.isDirectlyAssignable proxy.type type = true := by
      rw [TypeSystem.isDirectlyAssignable, TypeSystem.isSameOrSubclass, List.contains_iff_mem.mpr inherited]
      simp
    unfold TypeSystem.isAssignable
    rw [direct, Bool.true_or]
  have owned : context.cache.owns proxy = true := by rw [IdentityCache.owns, live]; rfl
  have kept : context.cache.isReleased proxy = false := by rw [IdentityCache.isReleased, owned]; simp
  rw [fits, compatibility]
  split
  · simp [objectCompatibility, kept, owned]
  · by_cases same : proxy.type = type
    · simp [proxyCompatibility, kept, owned, same]
    · simp [proxyCompatibility, kept, owned, same, assignable]

namespace Host

variable {host : Host} {world : World} {proxy : Proxy} {value : HostValue} {type : TypeRef}

theorem exec_expectInstance_of_live (live : world.context.cache.resolve? proxy = some value)
    (fits : world.context.fits host.system (.proxy proxy) type = true) (activity : String) :
    exec (host.expectInstance (.proxy proxy) type activity) world = (.ok (value, proxy.key), world) := by
  simp [expectInstance, exec_bind, live, fits]

theorem exec_setItemIn_of_ignored (owner : TypeRef) (receiver : HostValue × ProxyKey) (key item : ScriptValue)
    {properties : List PropertyDef}
    (ignored : ∀ property ∈ properties, property.setter.isSome = true →
      ∀ index, keyType? property = some index → world.context.fits host.system key index = false) :
    exec (host.setItemIn owner receiver key item properties) world = (.ok [.boolean false], world) := by
  induction properties with
  | nil => rfl
  | cons property rest ih =>
      have later := ih fun other listed => ignored other (List.mem_cons_of_mem _ listed)
      rw [setItemIn]
      split
      next index setter takes sets =>
        have foreign := ignored property List.mem_cons_self (by rw [sets]; rfl) index takes
        rw [exec_bind_of_ok (exec_fits key index world), foreign]
        exact later
      next => exact later

/-- A live instance is passed to the indexers of its type. -/
theorem exec_invoke_itemSetter {setter : CallableHandle} {properties : List PropertyDef}
    (live : world.context.cache.resolve? proxy = some value)
    (fits : world.context.fits host.system (.proxy proxy) type = true)
    (registered : Registered world.context.callables setter (.itemSetter type properties)) (key item : ScriptValue) :
    exec (host.invoke setter [.proxy proxy, key, item]) world =
      exec (host.setItemIn type (value, proxy.key) key item properties) world := by
  rw [exec_invoke_of_generated registered rfl, runMember]
  cases properties with
  | nil => rfl
  | cons first rest =>
      rw [setItem, argumentAt, List.getD_cons_zero, exec_bind_of_ok (exec_expectInstance_of_live live fits _)]
      rfl

/-- Indexers that do not take a key are asked and leave all as it was. -/
theorem exec_writeItem_of_ignored {binding : TypeBinding}
    (wired : binding.Wired host.system world.context.callables type)
    (live : world.context.cache.resolve? proxy = some value)
    (fits : world.context.fits host.system (.proxy proxy) type = true) {key : ScriptValue} {read : HostValue}
    (ignores : binding.Ignores host world.context type read key) (item : ScriptValue) :
    exec (writeItem host.invoke binding (.proxy proxy) key item) world = (.ok false, world) := by
  simp only [writeItem]
  split
  · rfl
  next setter given =>
    rcases wired.itemSetter setter given with ⟨properties, registered⟩
    have settable : world.context.settableItems binding =
        properties.filter fun property => property.setter.isSome := by
      rw [Context.settableItems, given, Option.bind_some, show world.context.callable? setter = _ from registered]
    have ignored : ∀ property ∈ properties, property.setter.isSome = true → ∀ index,
        keyType? property = some index → world.context.fits host.system key index = false :=
      fun property listed sets => ignores.indexers property (settable ▸ List.mem_filter.mpr ⟨listed, sets⟩)
    have called := exec_invoke_itemSetter live fits registered key item
    rw [exec_setItemIn_of_ignored type _ key item ignored] at called
    rw [firstResult, bind_assoc, exec_bind_of_ok called]
    rfl

theorem exec_writeArray_of_ignored {binding : TypeBinding} {key : ScriptValue}
    (ignores : binding.Ignores host world.context type value key) (item : ScriptValue) :
    exec (host.writeArray value type key item) world = (.ok false, world) := by
  simp only [writeArray]
  split
  next isObject isArray isInteger =>
    rw [ignores.elements (by rw [isObject]; rfl) (by rw [isArray]; rfl)] at isInteger
    cases isInteger
  next => rfl

/-- A write goes past the types along a chain that do not take it. -/
theorem exec_writeAlong_append (wired : world.context.Wired host.system)
    (live : world.context.cache.resolve? proxy = some value) {key : ScriptValue} {read : HostValue}
    {passed : List TypeRef} (fits : ∀ type ∈ passed, world.context.fits host.system (.proxy proxy) type = true)
    (ignored : ∀ type ∈ passed, ∀ binding, world.context.binding? type = some binding →
      binding.Ignores host world.context type read key) (rest : List TypeRef) (item : ScriptValue) :
    exec (host.writeAlong host.invoke proxy read key item (passed ++ rest)) world =
      exec (host.writeAlong host.invoke proxy read key item rest) world := by
  induction passed with
  | nil => rfl
  | cons type passed ih =>
      have later := ih (fun other listed => fits other (List.mem_cons_of_mem _ listed))
        fun other listed => ignored other (List.mem_cons_of_mem _ listed)
      rw [List.cons_append, writeAlong, exec_bind_of_ok (exec_context world)]
      cases bound : world.context.binding? type with
      | none => exact later
      | some binding =>
          have ignores := ignored type List.mem_cons_self binding bound
          have noSetter : (key.asString?.bind fun name => binding.slot? .setters name) = none := by
            rw [Option.bind_eq_none_iff]
            intro name isName
            cases key with
            | string text => exact ignores.setters name (congrArg _ (Option.some.inj isName))
            | _ => cases isName
          have refused := exec_writeItem_of_ignored (wired.bindings type binding bound) live
            (fits type List.mem_cons_self) ignores item
          simp only [noSetter]
          rw [exec_bind_of_ok (exec_writeArray_of_ignored ignores item)]
          simp only [Bool.false_eq_true, if_false]
          rw [exec_bind_of_ok refused]
          simpa using later

/-- A write that no type along a chain takes is refused. -/
theorem exec_writeAlong_of_ignored (wired : world.context.Wired host.system)
    (live : world.context.cache.resolve? proxy = some value) {key : ScriptValue} {chain : List TypeRef}
    (fits : ∀ type ∈ chain, world.context.fits host.system (.proxy proxy) type = true)
    (ignored : ∀ type ∈ chain, ∀ binding, world.context.binding? type = some binding →
      binding.Ignores host world.context type value key) (item : ScriptValue) :
    exec (host.writeAlong host.invoke proxy value key item chain) world =
      (.error (host.noSuchField proxy.type key), world) := by
  have past := exec_writeAlong_append wired live fits ignored [] item
  rw [List.append_nil] at past
  exact past

theorem exec_liveValue_of_live (live : world.context.cache.resolve? proxy = some value) :
    exec (host.liveValue proxy) world = (.ok value, world) := by
  simp [liveValue, exec_bind, live]

theorem exec_ensureBound_of_isBound (bound : world.context.isBound type = true) :
    exec (Bridge.asScript (host.ensureBound type)) world = (.ok (), world) := by
  simp [Bridge.asScript, exec_adapt, ensureBound, ensureBoundBy, exec_bind, bound, Except.mapError]

/-- A write to a live instance of a bound type that nothing takes says so, and does nothing else. -/
theorem exec_assign_of_ignored (wired : world.context.Wired host.system)
    (live : world.context.cache.resolve? proxy = some value)
    (bound : world.context.isBound proxy.type = true) {key : ScriptValue}
    (ignored : ∀ type ∈ world.context.lookupChain host.system proxy.type, ∀ binding,
      world.context.binding? type = some binding → binding.Ignores host world.context type value key)
    (item : ScriptValue) :
    exec (host.perform (.assign (.proxy proxy) key item)) world =
      (.error (.script (host.noSuchField proxy.type key)), world) := by
  have written : exec (host.assign (.proxy proxy) key item) world =
      (.error (host.noSuchField proxy.type key), world) := by
    rw [assign, assignBy, assignInstance, exec_bind_of_ok (exec_liveValue_of_live live),
      exec_bind_of_ok (exec_ensureBound_of_isBound bound), exec_bind_of_ok (exec_context world)]
    exact exec_writeAlong_of_ignored wired live
      (fun type above => Context.fits_of_lookupChain wired live bound above) ignored item
  rw [perform, answerScript, exec_map, exec_adapt, written]
  rfl

theorem wired_follows {start : World} (wired : start.context.Wired host.system)
    (follows : host.Follows start world) : world.context.Wired host.system := by
  induction follows with
  | refl => exact wired
  | tail _ change ih =>
      exact change.holds (respects_wiring host) (fun _ => id)
        (fun callable => (installs_wiring host .object).registers callable)
        (fun type wired => Context.Wired.unbind wired type) (fun _ _ => id) ih

/-- What follows in the course of operations reaches the cache by requests alone. -/
theorem requests_follows {start : World} (follows : host.Follows start world) :
    ∃ requests, world.context.cache = start.context.cache.afterAll requests := by
  induction follows with
  | refl => exact ⟨[], rfl⟩
  | tail _ change ih =>
      exact change.holds (respects_requestedFrom host start.context.cache) (fun _ => id)
        (fun callable => .ofStepwise (@binds_register host callable).steps fun _ _ => Step.requestedFrom)
        (fun _ => id) (fun _ _ => id) ih

theorem consistent_follows {start : World} (consistent : start.context.cache.Consistent)
    (follows : host.Follows start world) : world.context.cache.Consistent := by
  rcases requests_follows follows with ⟨requests, reached⟩
  rw [reached]
  exact consistent.afterAll requests

theorem tag_follows {start : World} (consistent : start.context.cache.Consistent) (follows : host.Follows start world) :
    world.context.cache.tag = start.context.cache.tag := by
  rcases requests_follows follows with ⟨requests, reached⟩
  rw [reached]
  exact (IdentityCache.succeeds_afterAll consistent requests).tag_eq

end Host

namespace Realm

/-- In the course of operations on a context of a run, the context is wired and its cache consistent. -/
theorem sound_follows (actions : List Action) {place : Nat} {context : Context}
    (present : (core.actAll actions).contexts[place]? = some context) {world : World}
    (follows : (core.actAll actions).host.Follows ⟨(core.actAll actions).store, context, []⟩ world) :
    world.context.Wired (core.actAll actions).host.system ∧ world.context.cache.Consistent := by
  have wired : context.Wired (core.actAll actions).host.system := wired_actAll actions place context present
  have consistent : context.cache.Consistent := consistent_cache actions present
  exact ⟨Host.wired_follows wired follows, Host.consistent_follows consistent follows⟩

/--
Refused operations have no effect on the host: in every run, also while functions of the embedder are running,
a write, a constructor call or a call of a member that is refused has run no native code, and what was there
before is as it was. A write to a live instance of a bound type that nothing along the chain of the type takes
is always refused.
-/
theorem refusals (actions : List Action) (place : Nat) (context : Context)
    (present : (core.actAll actions).contexts[place]? = some context) (world : World)
    (follows : (core.actAll actions).host.Follows ⟨(core.actAll actions).store, context, []⟩ world) :
    let host := (core.actAll actions).host
    (∀ operation error after, operation.Direct world.context →
      exec (host.perform operation) world = (.error (.script error), after) → error.isRejection = true →
      host.CallsOnly (fun _ _ => False) operation world ∧ world.Untouched after) ∧
    ∀ proxy value key item, world.context.cache.resolve? proxy = some value →
      world.context.isBound proxy.type = true →
      (∀ type ∈ world.context.lookupChain host.system proxy.type, ∀ binding,
        world.context.binding? type = some binding → binding.Ignores host world.context type value key) →
      exec (host.perform (.assign (.proxy proxy) key item)) world =
        (.error (.script (host.noSuchField proxy.type key)), world) := by
  intro host
  rcases sound_follows actions present follows with ⟨wired, consistent⟩
  exact ⟨fun operation error after => Host.callsNothing_of_refused wired consistent,
    fun proxy value key item live bound ignored => Host.exec_assign_of_ignored wired live bound ignored item⟩

/-- A type with an indexer that can be set at texts. -/
def shelf : TypeDef :=
  (TypeDef.ofClass "Game" "Shelf").addProperty "Item" .string false .visible [.plain "place" .string] none
    (some (.native 0))

/-- A shelf is handed to a script. -/
def shelfHanded : List Action :=
  [.declare shelf, .addNative fun _ invocation => pure (invocation.complete .null), .openContext .standard,
    .make (.newObject (.declared 14)), .perform 0 (.push (.object ⟨0⟩))]

/-- The script writes at a number: nothing takes that, no native code runs, and nothing changes. -/
theorem refusals_shelfHanded :
    ∃ context,
      (core.actAll shelfHanded).contexts[0]? = some context ∧
      let host := (core.actAll shelfHanded).host
      let world : World := ⟨(core.actAll shelfHanded).store, context, []⟩
      let operation : Operation := .assign (.proxy ⟨⟨3, 0⟩, .declared 14, ⟨1⟩⟩) (.integer 7) (.string "Dune")
      exec (host.perform operation) world = (.error (.script (host.noSuchField (.declared 14) (.integer 7))), world) ∧
        host.CallsOnly (fun _ _ => False) operation world ∧ world.Untouched world := by
  have handed : ((core.actAll shelfHanded).contexts[0]?.map fun context =>
      (context.cache.owns ⟨⟨3, 0⟩, .declared 14, ⟨1⟩⟩, context.isBound (.declared 14),
        (context.lookupChain (core.actAll shelfHanded).host.system (.declared 14)).all fun type => type.element?.isNone &&
          (context.binding? type).all fun binding => (context.settableItems binding).all fun property =>
            (Host.keyType? property).all fun index =>
              !context.fits (core.actAll shelfHanded).host.system (.integer 7) index)) =
        some (true, true, true) := by
    decide +kernel
  rcases Option.map_eq_some_iff.mp handed with ⟨context, present, checked⟩
  rcases Prod.mk.inj checked with ⟨owned, rest⟩
  rcases Prod.mk.inj rest with ⟨bound, ignoring⟩
  rcases Option.isSome_iff_exists.mp owned with ⟨value, live⟩
  have outcome := refusals shelfHanded 0 context present ⟨(core.actAll shelfHanded).store, context, []⟩ .refl
  refine ⟨context, present, ?_⟩
  generalize (core.actAll shelfHanded).host = host at outcome ignoring ⊢
  generalize (core.actAll shelfHanded).store = store at outcome ⊢
  rcases outcome with ⟨harmless, announced⟩
  have refused := announced ⟨⟨3, 0⟩, .declared 14, ⟨1⟩⟩ value (.integer 7) (.string "Dune") live bound
    (TypeBinding.ignores_of_all ignoring)
  exact ⟨refused, harmless _ _ _ (.assign _ _ _) refused rfl⟩

end Realm

end ScriptBridge
