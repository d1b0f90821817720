import ScriptBridge.Context.Members
import ScriptBridge.Proofs.Namespaces.Shape
import ScriptBridge.Proofs.Steps.Installing

/-!
# What members keep

An invariant that the steps outside of binding keep, and the few operations that
bind, is kept when a method is called, when fields and items are read and written,
and when events are changed. A copied receiver is written back to the entry that it
was read from, since nothing touches the cache in between.
-/

namespace ScriptBridge

/-- What is done to a world outside of binding keeps an invariant. -/
structure Host.KeptOutside (host : Host) (invariant : Invariant) : Prop where
  /-- The tables stay as they are. -/
  outside : ∀ {world after : World}, host.OutsideStep world after →
    after.context.heap = world.context.heap → invariant.holds world → invariant.holds after
  createTable : ∀ {world : World}, invariant.holds world →
    invariant.holds
      { world with context := { world.context with heap := (world.context.heap.create .plain).2 } }
  /-- A namespace of registered types is entered below a namespace, under a name that nothing has. -/
  enterSpace : ∀ {world : World} {table : TableId} {path name : String},
    world.context.heap.kind? table = some (.space path) → world.context.heap.get table (.string name) = .nil →
    host.registry.hasNamespace host.system (NamespaceTree.extendPath path name) = true → invariant.holds world →
    invariant.holds
      { world with context := { world.context with
          heap := (world.context.heap.graft table name (.space (NamespaceTree.extendPath path name)) []).2 } }

/-- An invariant that every step outside of binding keeps. -/
theorem Host.keptOutside_of_steps {host : Host} {invariant : Invariant}
    (kept : ∀ {world after : World}, host.OutsideStep world after → invariant.holds world →
      invariant.holds after) : host.KeptOutside invariant where
  outside step _ := kept step
  createTable := kept (.createTable _ .plain)
  enterSpace _ _ _ holds := kept (.writeKey _ _ _ _) (kept (.createTable _ _) holds)

/-- What operations do before they run native code or write anything into the host keeps an invariant. -/
structure Host.RespectsPreparation (host : Host) (invariant : Invariant) : Prop where
  allocate : ∀ {world : World} (object : Instance HostValue), invariant.holds world →
    invariant.holds { world with store := (world.store.allocate object).2 }
  /-- A value is represented under its run-time type. -/
  represent : ∀ {world : World} {value : HostValue} {type : TypeRef}, value.toScript? = none →
    world.store.typeOf? value = some type → invariant.holds world →
    invariant.holds
      { world with context := { world.context with cache := (world.context.cache.represent value type).2 } }
  countResolution : ∀ {world : World} (matched : Bool), invariant.holds world →
    invariant.holds
      { world with context := { world.context with
          counters := world.context.counters.countResolution matched } }
  bindWith : ∀ type access mode, invariant.KeptBy (host.bindWith type access mode)
  resolveMember : ∀ member, invariant.KeptBy (host.resolveMember member)

/--
All that changes a context keeps an invariant, but for dropping a binding, and for what the embedder registers
and others write into tables.
-/
structure Host.Respects (host : Host) (invariant : Invariant) : Prop
    extends host.KeptOutside invariant, host.RespectsPreparation invariant where
  allocate := fun object holds => outside (.allocate _ object) rfl holds
  showHidden : ∀ type, invariant.KeptBy (host.showHidden type)

/-- Entries that scripts and the embedder write keep an invariant too. -/
structure Host.RespectsWrites (host : Host) (invariant : Invariant) : Prop extends host.Respects invariant where
  writeKey : ∀ {world : World} (id : TableId) (key : ScriptKey) (value : ScriptValue), invariant.holds world →
    invariant.holds
      { world with context := { world.context with heap := world.context.heap.set id key value } }

namespace Host

open Bridge

theorem RespectsPreparation.both {host : Host} {first second : Invariant} (one : host.RespectsPreparation first)
    (other : host.RespectsPreparation second) : host.RespectsPreparation (first.both second) where
  allocate object holds := ⟨one.allocate object holds.1, other.allocate object holds.2⟩
  represent simple typed holds := ⟨one.represent simple typed holds.1, other.represent simple typed holds.2⟩
  countResolution matched holds := ⟨one.countResolution matched holds.1, other.countResolution matched holds.2⟩
  bindWith type access mode := (one.bindWith type access mode).both (other.bindWith type access mode)
  resolveMember member := (one.resolveMember member).both (other.resolveMember member)

theorem RespectsWrites.both {host : Host} {first second : Invariant} (one : host.RespectsWrites first)
    (other : host.RespectsWrites second) : host.RespectsWrites (first.both second) where
  outside step same holds := ⟨one.outside step same holds.1, other.outside step same holds.2⟩
  createTable holds := ⟨one.createTable holds.1, other.createTable holds.2⟩
  enterSpace space vacant known holds :=
    ⟨one.enterSpace space vacant known holds.1, other.enterSpace space vacant known holds.2⟩
  toRespectsPreparation := one.toRespectsPreparation.both other.toRespectsPreparation
  showHidden type := (one.showHidden type).both (other.showHidden type)
  writeKey id key value holds := ⟨one.writeKey id key value holds.1, other.writeKey id key value holds.2⟩

variable {host : Host} {ε : Type} [BindingFailure ε] {invariant : Invariant}

theorem RespectsPreparation.ensureBound (respects : host.RespectsPreparation invariant) (type : TypeRef) :
    invariant.KeptBy (host.ensureBound type) :=
  keptBy_ensureBoundBy (respects.bindWith type)

theorem Respects.bind (respects : host.Respects invariant) (type : TypeRef) :
    invariant.KeptBy (host.bind type) :=
  .bind .context fun _ => respects.bindWith _ _ _

theorem Respects.loadClass (respects : host.Respects invariant) (type : TypeRef) :
    invariant.KeptBy (host.loadClass type) :=
  .bind (respects.bind type) fun _ => .pure _

theorem RespectsPreparation.pushBare (respects : host.RespectsPreparation invariant) (value : HostValue) :
    invariant.KeptBy (host.push value) :=
  fun _ holds =>
    arrives_pushBy binds_bindWith holds (fun _ => respects.bindWith _) fun _ _ => respects.represent

theorem RespectsPreparation.push (respects : host.RespectsPreparation invariant) (value : HostValue) :
    invariant.KeptBy (Bridge.asScript (host.push value)) :=
  (respects.pushBare value).asScript

@[simp]
theorem exec_toHost (value : ScriptValue) (type : TypeRef) (world : World) :
    exec (host.toHost value type) world = (world.context.toHost host.system value type, world) :=
  exec_ofExcept _ _

omit [BindingFailure ε] in
@[simp]
theorem exec_fits (value : ScriptValue) (type : TypeRef) (world : World) :
    exec (host.fits value type : Bridge ε Bool) world =
      (.ok (world.context.fits host.system value type), world) := rfl

theorem keptBy_toHost (value : ScriptValue) (type : TypeRef) : invariant.KeptBy (host.toHost value type) :=
  .bind .context fun _ => .ofExcept _

/-- Converting a value changes nothing. -/
theorem arrives_converted {α : Type} (value : ScriptValue) (type : TypeRef)
    {next : HostValue → Bridge ScriptError α} {world : World} (holds : invariant.holds world)
    (continues : ∀ converted, invariant.Arrives (exec (next converted) world)) :
    invariant.Arrives (exec (host.toHost value type >>= next) world) := by
  rw [exec_bind, exec_toHost]
  cases world.context.toHost host.system value type with
  | error error => exact .inl holds
  | ok converted => exact continues converted

theorem keptBy_fits (value : ScriptValue) (type : TypeRef) :
    invariant.KeptBy (host.fits value type : Bridge ε Bool) :=
  .bind .context fun _ => .pure _

theorem RespectsPreparation.resolveOverload (respects : host.RespectsPreparation invariant) (group : OverloadGroup)
    (arguments : List ScriptValue) : invariant.KeptBy (host.resolveOverload group arguments) := by
  refine .bind .context fun context => .bind ?_ fun _ => ?_
  · exact .modifyContext fun world => respects.countResolution _
  split
  · exact .pure _
  · exact .throw _

theorem RespectsPreparation.gatherArray (respects : host.RespectsPreparation invariant) (type element : TypeRef)
    (inputs : List ScriptValue) : invariant.KeptBy (host.gatherArray type element inputs) := by
  refine .bind (.mapM _ fun input _ => keptBy_toHost _ _) fun elements => ?_
  exact fun world holds => .inl (respects.allocate ⟨type, .empty, elements⟩ holds)

theorem RespectsPreparation.collectVariadic (respects : host.RespectsPreparation invariant) (type : TypeRef)
    (inputs : List ScriptValue) : invariant.KeptBy (host.collectVariadic type inputs) := by
  refine .bind .context fun context => ?_
  dsimp only
  split
  · exact keptBy_toHost _ _
  · split
    · exact .throw _
    · exact respects.gatherArray _ _ _

theorem RespectsPreparation.hostArguments (respects : host.RespectsPreparation invariant) (specialization : Specialization)
    (parameters : List Parameter) (inputs : List ScriptValue) :
    invariant.KeptBy (host.hostArguments specialization parameters inputs) := by
  induction parameters generalizing inputs with
  | nil => exact .pure _
  | cons parameter parameters ih =>
      rw [Host.hostArguments]
      split
      · exact .throw _
      · split
        · exact .bind (ih _) fun _ => .pure _
        · split
          · exact .bind (respects.collectVariadic _ _) fun _ => .bind (ih _) fun _ => .pure _
          · exact .bind (keptBy_toHost _ _) fun _ => .bind (ih _) fun _ => .pure _

theorem exec_runNative (method : MethodDef) (invocation : Invocation) (world : World) :
    exec (host.runNative method invocation) world =
      ((((method.body.run host.natives host.system invocation).run).run world.store).1,
        { world with store :=
            (((method.body.run host.natives host.system invocation).run).run world.store).2 }) := by
  simp only [runNative, exec_bind, exec_store]
  exact exec_ofExcept _ _

theorem Respects.runNative (respects : host.Respects invariant) (method : MethodDef)
    (invocation : Invocation) : invariant.KeptBy (host.runNative method invocation) := by
  intro world holds
  rw [exec_runNative]
  exact .inl (respects.outside (.native world method invocation) rfl holds)

/-- A key, if there is one, is live and stands for the receiver. -/
def StandsFor (world : World) (key : Option ProxyKey) (receiver : Option HostValue) : Prop :=
  ∀ proxied, key = some proxied →
    ∃ entry, world.context.cache.lookup? proxied = some entry ∧ receiver = some entry.value

theorem standsFor_none (world : World) (receiver : Option HostValue) :
    StandsFor world Option.none receiver := by
  intro proxied absent
  cases absent

/-- Running native code and then writing back the receiver that stands behind a key. -/
theorem Respects.native_writeBack (respects : host.Respects invariant) {method : MethodDef}
    {invocation : Invocation} {world after : World} {key : Option ProxyKey} {completion : Completion}
    (stands : StandsFor world key invocation.receiver) (holds : invariant.holds world)
    (ran : exec (host.runNative method invocation) world = (.ok completion, after)) :
    invariant.Arrives (exec (writeBack key completion.receiver : Bridge ε Unit) after) := by
  rw [exec_runNative] at ran
  rcases Prod.mk.inj ran with ⟨completed, rfl⟩
  have alone := respects.outside (.native world method invocation) rfl holds
  simp only [writeBack]
  split
  next proxied written left =>
    split
    next copied =>
      rcases stands proxied rfl with ⟨entry, live, handed⟩
      exact .inl (respects.outside (.nativeOn world method invocation proxied entry completion written _
        live handed (Prod.ext completed rfl) left copied) rfl holds)
    next => exact .inl alone
  next => exact .inl alone

/-- Writing a field of the instance that stands behind a key and then writing the instance back. -/
theorem Respects.writeField_writeBack (respects : host.Respects invariant) {field : Field}
    {world : World} {key : Option ProxyKey} {target written : Option HostValue} {value : HostValue}
    {store : HostStore} (stands : StandsFor world key target) (holds : invariant.holds world)
    (wrote : world.store.writeField? field target value = some (written, store)) :
    invariant.Arrives (exec (writeBack key written : Bridge ε Unit) { world with store := store }) := by
  have alone := respects.outside (.writeField world field target written value store wrote) rfl holds
  simp only [writeBack]
  split
  next proxied left =>
    split
    next copied =>
      rcases stands proxied rfl with ⟨entry, live, rfl⟩
      exact .inl (respects.outside
        (.writeFieldOn world field proxied entry value left store live wrote copied) rfl holds)
    next => exact .inl alone
  next => exact .inl alone

theorem standsFor_of_resolve? {world : World} {proxy : Proxy} {value : HostValue}
    (resolved : world.context.cache.resolve? proxy = some value) :
    StandsFor world (some proxy.key) (some value) := by
  intro proxied same
  rcases Option.some.inj same with rfl
  rcases IdentityCache.resolve?_eq_some_iff.mp resolved with ⟨-, entry, live, rfl⟩
  exact ⟨entry, live, rfl⟩

/-- An operation that changes nothing and gives an instance with its key. -/
def FindsInstance (find : Bridge ScriptError (HostValue × ProxyKey)) : Prop :=
  ∀ world, (exec find world).2 = world ∧
    ∀ value key, (exec find world).1 = .ok (value, key) → StandsFor world (some key) (some value)

theorem findsInstance_throw (error : ScriptError) : FindsInstance (throw error) :=
  fun _ => ⟨rfl, fun _ _ impossible => by cases impossible⟩

/-- Both ways to look for an instance ask whether the proxy is live and then whether it fits. -/
theorem findsInstance_proxy (proxy : Proxy) (type : TypeRef) (wrong : ScriptError) :
    FindsInstance (do
      match (← Bridge.context).cache.resolve? proxy with
      | none => throw (.staleProxy (host.fullName proxy.type))
      | some value =>
          if ← host.fits (.proxy proxy) type then return (value, proxy.key) else throw wrong) := by
  intro world
  simp only [exec_bind, exec_context]
  split
  next => exact findsInstance_throw _ world
  next value resolved =>
    simp only [exec_bind, exec_fits]
    split
    · refine ⟨rfl, fun found key result => ?_⟩
      rcases Prod.mk.inj (Except.ok.inj result) with ⟨rfl, rfl⟩
      exact standsFor_of_resolve? resolved
    · exact findsInstance_throw _ world

theorem findsInstance_methodReceiver (group : OverloadGroup) (arguments : List ScriptValue) :
    FindsInstance (host.methodReceiver group arguments) := by
  simp only [methodReceiver]
  cases arguments.headD .nil with
  | proxy proxy => exact findsInstance_proxy proxy group.owner _
  | _ => exact findsInstance_throw _

theorem findsInstance_expectInstance (target : ScriptValue) (type : TypeRef) (activity : String) :
    FindsInstance (host.expectInstance target type activity) := by
  simp only [expectInstance]
  cases target with
  | proxy proxy => exact findsInstance_proxy proxy type _
  | _ => exact findsInstance_throw _

/-- What follows may use that nothing happened yet and what stands for the instance. -/
theorem FindsInstance.keptBy {α : Type} {find : Bridge ScriptError (HostValue × ProxyKey)}
    (finds : FindsInstance find) {next : HostValue × ProxyKey → Bridge ScriptError α}
    (continues : ∀ receiver world, StandsFor world (some receiver.2) (some receiver.1) →
      invariant.holds world → invariant.Arrives (exec (next receiver) world)) :
    invariant.KeptBy (find >>= next) := by
  intro world holds
  rcases finds world with ⟨unchanged, stands⟩
  refine Invariant.Arrives.bind (.inl (by rw [unchanged]; exact holds)) fun receiver after run _ => ?_
  rw [run] at unchanged stands
  rcases unchanged with rfl
  exact continues receiver after (stands receiver.1 receiver.2 rfl) holds

theorem RespectsPreparation.freshInstance (respects : host.RespectsPreparation invariant) (type : TypeRef) :
    invariant.KeptBy (host.freshInstance type : Bridge ε HostValue) := by
  rw [Host.freshInstance]
  dsimp only
  split
  · exact .pure _
  · exact fun world holds => .inl (respects.allocate _ holds)

/-- The receiver of a call stands behind the key that it is written back to. -/
theorem RespectsPreparation.receiverFor (respects : host.RespectsPreparation invariant) (group : OverloadGroup)
    (candidate : Candidate) (arguments : List ScriptValue) {world : World} (holds : invariant.holds world) :
    invariant.Arrives (exec (host.receiverFor group candidate arguments) world) ∧
      ∀ receiver key after,
        exec (host.receiverFor group candidate arguments) world = (.ok (receiver, key), after) →
        StandsFor after key receiver := by
  rw [Host.receiverFor]
  cases group.shape with
  | onInstance =>
      dsimp only
      split
      · refine ⟨.inl holds, fun receiver key after run => ?_⟩
        rcases Prod.mk.inj run with ⟨result, rfl⟩
        rcases Prod.mk.inj (Except.ok.inj result) with ⟨rfl, rfl⟩
        exact standsFor_none _ _
      · rcases @findsInstance_methodReceiver host group arguments world with ⟨unchanged, stands⟩
        rw [exec_bind]
        cases run : exec (host.methodReceiver group arguments) world with
        | mk result after =>
            rw [run] at unchanged stands
            rcases unchanged with rfl
            cases result with
            | error error => exact ⟨.inl holds, fun _ _ _ impossible => by cases impossible⟩
            | ok found =>
                refine ⟨.inl holds, fun receiver key last run => ?_⟩
                rcases Prod.mk.inj run with ⟨result, rfl⟩
                rcases Prod.mk.inj (Except.ok.inj result) with ⟨rfl, rfl⟩
                exact stands found.1 found.2 rfl
  | construction =>
      refine ⟨(Invariant.KeptBy.bind (respects.freshInstance _) fun _ => .pure _) world holds,
        fun receiver key after run => ?_⟩
      rw [exec_bind] at run
      split at run
      next =>
        rcases Prod.mk.inj run with ⟨result, rfl⟩
        rcases Prod.mk.inj (Except.ok.inj result) with ⟨rfl, rfl⟩
        exact standsFor_none _ _
      next => cases run
  | onType =>
      refine ⟨.inl holds, fun receiver key after run => ?_⟩
      rcases Prod.mk.inj run with ⟨result, rfl⟩
      rcases Prod.mk.inj (Except.ok.inj result) with ⟨rfl, rfl⟩
      exact standsFor_none _ _

theorem Respects.callGroup (respects : host.Respects invariant) (group : OverloadGroup)
    (arguments : List ScriptValue) : invariant.KeptBy (host.callGroup group arguments) := by
  refine .bind (respects.resolveOverload _ _) fun candidate =>
    .bind (respects.hostArguments _ _ _) fun values => ?_
  intro world holds
  rcases respects.receiverFor group candidate arguments holds with ⟨arrives, stands⟩
  refine arrives.bind fun (receiver, key) before found reached => ?_
  refine ((respects.runNative _ _ before reached).adapt fun _ _ => False.elim).bind ?_
  intro completion after ran _
  refine (respects.native_writeBack (stands _ _ _ found) reached (exec_of_adapt_ok ran)).bind ?_
  intro _ last _ written
  split
  · exact (Invariant.KeptBy.bind (respects.push _) fun _ => .pure _) last written
  · exact Invariant.KeptBy.mapM _ (fun value _ => respects.push value) last written

theorem Respects.runAccessor (respects : host.Respects invariant) (owner : TypeRef) (method : MethodDef)
    (receiver : Option (HostValue × ProxyKey)) (arguments : List HostValue) {world : World}
    (stands : StandsFor world (receiver.map Prod.snd) (receiver.map Prod.fst))
    (holds : invariant.holds world) :
    invariant.Arrives (exec (host.runAccessor owner method receiver arguments) world) :=
  (respects.runNative _ _ world holds).bind fun _ _ ran _ =>
    (respects.native_writeBack stands holds ran).bind fun _ _ _ written => .inl written

theorem memberReceiver_stands (isStatic : Bool) (type : TypeRef) (activity : String)
    (arguments : List ScriptValue) (world : World) :
    (exec (host.memberReceiver isStatic type activity arguments) world).2 = world ∧
      ∀ receiver, (exec (host.memberReceiver isStatic type activity arguments) world).1 = .ok receiver →
        StandsFor world (receiver.map Prod.snd) (receiver.map Prod.fst) := by
  rw [memberReceiver]
  split
  · refine ⟨rfl, fun receiver result => ?_⟩
    rcases Except.ok.inj result with rfl
    exact standsFor_none _ _
  · rcases @findsInstance_expectInstance host (argumentAt arguments 0) type activity world with
      ⟨unchanged, stands⟩
    rw [exec_bind]
    cases run : exec (host.expectInstance (argumentAt arguments 0) type activity) world with
    | mk result after =>
        rw [run] at unchanged stands
        cases result with
        | error error => exact ⟨unchanged, fun _ impossible => by cases impossible⟩
        | ok found =>
            refine ⟨unchanged, fun receiver result => ?_⟩
            rcases Except.ok.inj result with rfl
            exact stands found.1 found.2 rfl

/-- What follows the look for a receiver may use that nothing happened yet and what stands for it. -/
theorem keptBy_memberReceiver {α : Type} (isStatic : Bool) (type : TypeRef) (activity : String)
    (arguments : List ScriptValue) {next : Option (HostValue × ProxyKey) → Bridge ScriptError α}
    (continues : ∀ receiver world, StandsFor world (receiver.map Prod.snd) (receiver.map Prod.fst) →
      invariant.holds world → invariant.Arrives (exec (next receiver) world)) :
    invariant.KeptBy (host.memberReceiver isStatic type activity arguments >>= next) := by
  intro world holds
  rcases @memberReceiver_stands host isStatic type activity arguments world with ⟨unchanged, stands⟩
  refine Invariant.Arrives.bind (.inl (by rw [unchanged]; exact holds)) fun receiver after run _ => ?_
  rw [run] at unchanged stands
  rcases unchanged with rfl
  exact continues receiver after (stands receiver rfl) holds

namespace RespectsPreparation

variable (respects : host.RespectsPreparation invariant)

include respects

theorem getField (field : Field) (arguments : List ScriptValue) :
    invariant.KeptBy (host.getField field arguments) := by
  apply keptBy_memberReceiver _ _ _ _
  intro target world _ holds
  refine Invariant.Arrives.bind (.inl holds) fun store after run kept => ?_
  split
  · exact (Invariant.KeptBy.bind (respects.push _) fun _ => .pure _) after kept
  · exact .inl kept

theorem castToEnum (type : TypeRef) (arguments : List ScriptValue) :
    invariant.KeptBy (host.castToEnum type arguments) := by
  refine .bind .context fun context => ?_
  split
  · exact .bind (respects.push _) fun _ => .pure _
  · exact .throw _

theorem wrapDelegate (type : TypeRef) (arguments : List ScriptValue) :
    invariant.KeptBy (host.wrapDelegate type arguments) := by
  simp only [Host.wrapDelegate]
  split
  · exact .bind (respects.push _) fun _ => .pure _
  · exact .throw _

end RespectsPreparation

namespace Respects

variable (respects : host.Respects invariant)

include respects

theorem setField (field : Field) (arguments : List ScriptValue) :
    invariant.KeptBy (host.setField field arguments) := by
  apply keptBy_memberReceiver _ _ _ _
  intro target world stands holds
  generalize argumentAt arguments (if field.definition.isStatic then 0 else 1) = item
  simp only [exec_bind_of_ok (exec_fits item field.definition.type world)]
  split
  · exact .inl holds
  · apply arrives_converted item field.definition.type holds
    intro converted
    rw [exec_bind_of_ok (exec_store world)]
    split
    next written store wrote =>
      rw [exec_bind_of_ok (exec_setStore store world)]
      exact (respects.writeField_writeBack stands holds wrote).bind fun _ last _ => .inl
    next => exact .inl holds

theorem getItemFrom (owner : TypeRef) (receiver : HostValue × ProxyKey) (key : ScriptValue)
    (properties : List PropertyDef) {world : World} (stands : StandsFor world receiver.2 receiver.1)
    (holds : invariant.holds world) :
    invariant.Arrives (exec (host.getItemFrom owner receiver key properties) world) := by
  induction properties with
  | nil => exact .inl holds
  | cons property rest ih =>
      rw [Host.getItemFrom]
      split
      next type getter _ _ =>
        rw [exec_bind_of_ok (exec_fits key type world)]
        split
        · apply arrives_converted key _ holds
          intro index
          have ran := respects.runAccessor owner getter (some receiver) [index] stands holds
          refine (ran.adapt fun _ _ => False.elim).bind fun value after _ kept => ?_
          exact (Invariant.KeptBy.bind (respects.push _) fun _ => .pure _) after kept
        · exact ih
      next => exact ih

theorem getItem (owner : TypeRef) (properties : List PropertyDef) (arguments : List ScriptValue) :
    invariant.KeptBy (host.getItem owner properties arguments) := by
  simp only [Host.getItem]
  split
  · exact .pure _
  · apply (findsInstance_expectInstance _ _ _).keptBy
    intro receiver world stands holds
    exact respects.getItemFrom owner receiver _ _ stands holds

theorem setItemIn (owner : TypeRef) (receiver : HostValue × ProxyKey) (key value : ScriptValue)
    (properties : List PropertyDef) {world : World} (stands : StandsFor world receiver.2 receiver.1)
    (holds : invariant.holds world) :
    invariant.Arrives (exec (host.setItemIn owner receiver key value properties) world) := by
  induction properties with
  | nil => exact .inl holds
  | cons property rest ih =>
      rw [Host.setItemIn]
      split
      next type setter _ _ =>
        rw [exec_bind_of_ok (exec_fits key type world)]
        split
        · rw [exec_bind_of_ok (exec_fits value property.type world)]
          dsimp only
          split
          · exact .inl holds
          · refine arrives_converted key type holds fun index =>
              arrives_converted value property.type holds fun item => ?_
            have ran := respects.runAccessor owner setter (some receiver) [index, item] stands
              holds
            exact ((ran.adapt fun _ _ => False.elim).map _).bind fun _ last _ => .inl
        · exact ih
      next => exact ih

theorem setItem (owner : TypeRef) (properties : List PropertyDef) (arguments : List ScriptValue) :
    invariant.KeptBy (host.setItem owner properties arguments) := by
  simp only [Host.setItem]
  split
  · exact .pure _
  · apply (findsInstance_expectInstance _ _ _).keptBy
    intro receiver world stands holds
    exact respects.setItemIn owner receiver _ _ _ stands holds

theorem changeEvent (owner : TypeRef) (event : EventDef) (arguments : List ScriptValue) :
    invariant.KeptBy (host.changeEvent owner event arguments) := by
  apply keptBy_memberReceiver _ _ _ _
  intro receiver world stands holds
  dsimp only
  split
  next => exact .inl holds
  next accessor _ =>
    split
    · apply arrives_converted _ _ holds
      intro delegate
      have ran := respects.runAccessor owner accessor receiver [delegate] stands holds
      exact ((ran.adapt fun _ _ => False.elim).map _).bind fun _ last _ => .inl
    · exact .inl holds

theorem constructGroup (group : OverloadGroup) (arguments : List ScriptValue) :
    invariant.KeptBy (host.constructGroup group arguments) := by
  rw [Host.constructGroup]
  split
  · exact .bind (respects.push _) fun _ => .pure _
  · split
    · exact .throw _
    · exact respects.callGroup _ _

end Respects

end Host

end ScriptBridge
