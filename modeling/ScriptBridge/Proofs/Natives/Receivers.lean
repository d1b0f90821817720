import ScriptBridge.Proofs.Natives.Alike
import ScriptBridge.Proofs.Natives.Callables
import ScriptBridge.Proofs.Realms.Typing

/-!
# Receivers of native code

What native code is called on. An instance member gets the value of a live proxy that
the script passed first; the proxy is one that the context itself made, and the value
is an instance of the type that declares the member. A constructor gets a new instance,
and all other members get nothing.
-/

namespace ScriptBridge

/-- A live proxy stands for a value that a member of a type can work on. -/
structure World.Lends (system : TypeSystem) (made : Proxy → Prop) (world : World) (type : TypeRef)
    (proxy : Proxy) (value : HostValue) : Prop where
  live : world.context.cache.resolve? proxy = some value
  /-- If any context made the proxy at all, then the context of the world did. -/
  own : made proxy → world.context.cache.Minted proxy
  typed : world.context.cache.Minted proxy → world.context.cache.FewReleases →
    ∃ runtime, world.store.typeOf? value = some runtime ∧ system.isAssignable runtime type = true

/-- A value is an instance of a type that was just made, with its slots at their initial values. -/
inductive World.Brings (system : TypeSystem) (world : World) (type : TypeRef) : HostValue → Prop
  | copied (isCopied : (system.definition type).isValueType = true) :
      Brings system world type (.copied (system.newInstance type))
  | shared {before : HostStore} (isShared : (system.definition type).isValueType = false)
      (allocated : world.store = (before.allocate (system.newInstance type)).2)
      (unknown : ∀ key entry, world.context.cache.lookup? key = some entry →
        entry.value ≠ .object (before.allocate (system.newInstance type)).1) :
      Brings system world type (.object (before.allocate (system.newInstance type)).1)

/-- The receiver is what the subject asks for, where a script passed some arguments. -/
def Subject.Receives (system : TypeSystem) (made : Proxy → Prop) (world : World) (arguments : List ScriptValue)
    (receiver : Option HostValue) : Subject → Prop
  | nothing => receiver = none
  | instanceOf type =>
      ∃ proxy value, arguments.head? = some (.proxy proxy) ∧ receiver = some value ∧
        world.Lends system made type proxy value
  | newInstanceOf type => ∃ value, receiver = some value ∧ world.Brings system type value

/-- The member is a declared one, and its code works on what the declaration asks for. -/
structure NativeCall.Legitimate (system : TypeSystem) (made : Proxy → Prop) (world : World)
    (call : NativeCall) : Prop where
  declared : call.member.DeclaredIn system
  declaringType : call.invocation.declaringType = call.member.owner
  receiver : call.member.subject.Receives system made world call.arguments call.invocation.receiver

namespace IdentityCache

variable {cache : IdentityCache} {proxy : Proxy}

theorem Minted.afterAll (minted : cache.Minted proxy) (consistent : cache.Consistent)
    (requests : List CacheRequest) : (cache.afterAll requests).Minted proxy := by
  rcases minted with ⟨earlier, value, type, later, history, rfl⟩
  rw [Minted, (succeeds_afterAll consistent requests).tag_eq]
  refine ⟨earlier, value, type, later ++ requests, ?_, rfl⟩
  rw [← List.cons_append, ← List.append_assoc, afterAll_append, ← history]

/-- Nothing that is added to the store later has a proxy already. -/
theorem TypedIn.value_ne_allocate {store : HostStore} (typed : cache.TypedIn store) (object : Instance HostValue)
    {key : ProxyKey} {entry : CacheEntry} (live : cache.lookup? key = some entry) :
    entry.value ≠ .object (store.allocate object).1 := by
  intro same
  have carried := typed key entry live
  rw [same] at carried
  simp [HostStore.typeOf?, HostStore.carriedType?, HostStore.instance?, HostStore.allocate] at carried

end IdentityCache

namespace Host

open Bridge

/-- What has to hold where an operation starts, so that native code is called as it should be. -/
structure Grounded (host : Host) (made : Proxy → Prop) (start : World) : Prop where
  regular : host.system.Regular
  standard : host.system.Standard
  natives : ∀ code ∈ host.natives, code.KeepsTypes
  lawful : start.context.Lawful host.system
  consistent : start.context.cache.Consistent
  typed : start.context.cache.TypedIn start.store
  own : ∀ proxy, made proxy → proxy.tag = start.context.cache.tag → start.context.cache.Minted proxy

/-- The callables are lawful, and steps lead to the world. -/
def legality (host : Host) (start : World) : Invariant := host.lawfulness.both (.reachedBy host.Step start)

variable {host : Host} {made : Proxy → Prop} {start world after : World}

theorem Grounded.holds (grounded : host.Grounded made start) : (host.legality start).holds start :=
  ⟨grounded.lawful, .refl⟩

theorem Grounded.respects (grounded : host.Grounded made start) : host.RespectsWrites (host.legality start) :=
  (respects_lawfulness grounded.regular).both (respects_reachedBy start)

namespace Grounded

variable (grounded : host.Grounded made start) (holds : (host.legality start).holds world)

include grounded holds

theorem typedIn : world.context.cache.TypedIn world.store :=
  (typedIn_of_steps grounded.natives holds.2 grounded.consistent).2 grounded.typed

theorem minted {proxy : Proxy} (known : made proxy) (own : proxy.tag = world.context.cache.tag) :
    world.context.cache.Minted proxy := by
  rcases requests_of_steps holds.2 with ⟨requests, reached⟩
  rw [reached] at own ⊢
  rw [(IdentityCache.succeeds_afterAll grounded.consistent requests).tag_eq] at own
  exact (grounded.own proxy known own).afterAll grounded.consistent requests

/-- A live proxy that fits a type lends an instance of it. -/
theorem lends {type : TypeRef} {proxy : Proxy} {value : HostValue}
    (resolved : world.context.cache.resolve? proxy = some value)
    (fits : world.context.fits host.system (.proxy proxy) type = true) :
    world.Lends host.system made type proxy value := by
  have typed := grounded.typedIn holds
  rcases IdentityCache.resolve?_eq_some_iff.mp resolved with ⟨own, entry, live, rfl⟩
  refine ⟨resolved, fun known => grounded.minted holds known own, fun minted few => ⟨entry.type, typed _ _ live, ?_⟩⟩
  rcases Option.isSome_iff_exists.mp fits with ⟨tier, compatible⟩
  have issued : world.context.Issued proxy := fun _ other otherLive => minted.type_eq few otherLive
  rcases Context.converts_of_compatibility grounded.standard typed
    (fun other same => ScriptValue.proxy.inj same ▸ issued) compatible with ⟨converted, run, held⟩
  have notReleased : world.context.cache.isReleased proxy = false := by
    simp [IdentityCache.isReleased, IdentityCache.owns, resolved]
  simp only [Context.toHost, notReleased, Bool.false_eq_true, if_false, resolved, Except.ok.injEq] at run
  subst run
  have assignable := held.typed fun none => by
    have carried := typed _ _ live
    rw [none] at carried
    cases carried
  rwa [typed _ _ live, Option.getD_some] at assignable

end Grounded

/-- The script passed a live proxy first, and what it stands for fits a type. -/
def Finds (host : Host) (world : World) (type : TypeRef) (arguments : List ScriptValue)
    (receiver : HostValue × ProxyKey) : Prop :=
  ∃ proxy, arguments.head? = some (.proxy proxy) ∧ world.context.cache.resolve? proxy = some receiver.1 ∧
    proxy.key = receiver.2 ∧ world.context.fits host.system (.proxy proxy) type = true

theorem Finds.standsFor {type : TypeRef} {arguments : List ScriptValue} {receiver : HostValue × ProxyKey}
    (finds : host.Finds world type arguments receiver) : StandsFor world (some receiver.2) (some receiver.1) := by
  rcases finds with ⟨proxy, -, resolved, same, -⟩
  exact same ▸ standsFor_of_resolve? resolved

/-- Both ways to look for an instance ask whether a proxy is live and then whether it fits. -/
theorem finds_of_proxy {type : TypeRef} {arguments : List ScriptValue} {receiver : HostValue × ProxyKey}
    {proxy : Proxy} {wrong : ScriptError} (passed : arguments.head? = some (.proxy proxy))
    (run : exec (do
        match (← Bridge.context).cache.resolve? proxy with
        | none => throw (.staleProxy (host.fullName proxy.type))
        | some value =>
            if ← host.fits (.proxy proxy) type then return (value, proxy.key) else throw wrong :
          Bridge ScriptError (HostValue × ProxyKey)) world = (.ok receiver, after)) : after = world ∧ host.Finds world type arguments receiver := by
  rw [exec_bind_of_ok (exec_context world)] at run
  split at run
  next => cases run
  next value resolved =>
    rw [exec_bind_of_ok (exec_fits (.proxy proxy) type world)] at run
    split at run
    next fits =>
      rcases Prod.mk.inj run with ⟨result, rfl⟩
      rcases Except.ok.inj result with rfl
      exact ⟨rfl, proxy, passed, resolved, rfl, fits⟩
    next => cases run

theorem finds_of_methodReceiver {group : OverloadGroup} {arguments : List ScriptValue}
    {receiver : HostValue × ProxyKey}
    (run : exec (host.methodReceiver group arguments) world = (.ok receiver, after)) :
    after = world ∧ host.Finds world group.owner arguments receiver := by
  simp only [methodReceiver] at run
  cases arguments with
  | nil => cases run
  | cons target rest =>
      cases target with
      | proxy proxy => exact finds_of_proxy rfl run
      | _ => cases run

theorem finds_of_expectInstance {type : TypeRef} {activity : String} {arguments : List ScriptValue}
    {receiver : HostValue × ProxyKey}
    (run : exec (host.expectInstance (argumentAt arguments 0) type activity) world = (.ok receiver, after)) :
    after = world ∧ host.Finds world type arguments receiver := by
  simp only [expectInstance] at run
  cases arguments with
  | nil => cases run
  | cons target rest =>
      cases target with
      | proxy proxy => exact finds_of_proxy rfl run
      | _ => cases run

/-- A member gets the receiver that its declaration asks for. -/
theorem receives_of_memberReceiver (grounded : host.Grounded made start)
    (holds : (host.legality start).holds world) {isStatic : Bool} {type : TypeRef} {activity : String}
    {arguments : List ScriptValue} {receiver : Option (HostValue × ProxyKey)}
    (run : exec (host.memberReceiver isStatic type activity arguments) world = (.ok receiver, after)) :
    after = world ∧ StandsFor world (receiver.map Prod.snd) (receiver.map Prod.fst) ∧
      (if isStatic then Subject.nothing else .instanceOf type).Receives host.system made world arguments
        (receiver.map Prod.fst) := by
  rw [memberReceiver] at run
  cases isStatic with
  | true =>
      rcases Prod.mk.inj run with ⟨result, rfl⟩
      rcases Except.ok.inj result with rfl
      exact ⟨rfl, standsFor_none _ _, rfl⟩
  | false =>
      rcases exec_bind_eq_ok run with ⟨found, middle, looked, rest⟩
      rcases Prod.mk.inj rest with ⟨result, rfl⟩
      rcases Except.ok.inj result with rfl
      rcases finds_of_expectInstance looked with ⟨rfl, finds⟩
      refine ⟨rfl, finds.standsFor, ?_⟩
      rcases finds with ⟨proxy, passed, resolved, -, fits⟩
      refine ⟨proxy, found.1, passed, rfl, ?_⟩
      exact grounded.lends holds resolved fits

end Host

end ScriptBridge
