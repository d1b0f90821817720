import ScriptBridge.Context.Calls
import ScriptBridge.Proofs.Tables.Wiring

/-!
# Calls of members

What generated callables do never fails for want of something to call. In a wired
context the same holds of every call through a slot: its callable is generated, or
it is a placeholder that is resolved to a generated one before that is called.
-/

namespace ScriptBridge

namespace Bridge

variable {ε α β : Type}

/-- No run of the operation fails because something is not callable. -/
def FindsCallables (action : Bridge ScriptError α) : Prop :=
  ∀ world kind, (exec action world).1 ≠ .error (.notCallable kind)

namespace FindsCallables

theorem pure (value : α) : FindsCallables (Pure.pure value) :=
  fun _ _ impossible => by cases impossible

theorem throw {error : ScriptError} (other : ∀ kind, error ≠ .notCallable kind) :
    FindsCallables (MonadExcept.throw error : Bridge ScriptError α) :=
  fun _ kind same => other kind (Except.error.inj same)

/-- What would follow a failure does not matter. -/
theorem throw_bind {error : ScriptError} (other : ∀ kind, error ≠ .notCallable kind)
    (next : α → Bridge ScriptError β) :
    FindsCallables ((MonadExcept.throw error : Bridge ScriptError α) >>= next) :=
  fun _ kind same => other kind (Except.error.inj same)

theorem bind {action : Bridge ScriptError α} {next : α → Bridge ScriptError β}
    (first : FindsCallables action) (second : ∀ value, FindsCallables (next value)) :
    FindsCallables (action >>= next) := by
  intro world kind
  rw [exec_bind]
  cases run : exec action world with
  | mk result after =>
      cases result with
      | ok value => exact second value after kind
      | error error =>
          intro same
          rcases Except.error.inj (same : (Except.error error : Except ScriptError β) = _) with rfl
          exact first world kind (congrArg Prod.fst run)

theorem map {action : Bridge ScriptError α} (change : α → β) (finds : FindsCallables action) :
    FindsCallables (change <$> action) := by
  rw [← bind_pure_comp]
  exact finds.bind fun value => .pure (change value)

theorem discard {action : Bridge ScriptError α} (finds : FindsCallables action) :
    FindsCallables (Functor.discard action) :=
  finds.map _

theorem adapt {action : Bridge ε α} {change : ε → ScriptError}
    (other : ∀ error kind, change error ≠ .notCallable kind) :
    FindsCallables (ExceptT.adapt change action) := by
  intro world kind same
  rw [exec_adapt] at same
  cases result : (exec action world).1 with
  | ok value => rw [result] at same; cases same
  | error error =>
      rw [result] at same
      exact other error kind (Except.error.inj same)

theorem asScript (action : Bridge BindError α) : FindsCallables (Bridge.asScript action) :=
  .adapt fun _ _ => ScriptError.noConfusion

theorem mapM {next : α → Bridge ScriptError β} (items : List α) (each : ∀ item, FindsCallables (next item)) :
    FindsCallables (items.mapM next) := by
  induction items with
  | nil => exact .pure []
  | cons item rest ih =>
      rw [List.mapM_cons]
      exact (each item).bind fun value => ih.bind fun values => .pure _

theorem ofOk {action : Bridge ScriptError α} (succeeds : ∀ world, ∃ value, (exec action world).1 = .ok value) :
    FindsCallables action := by
  intro world kind same
  rcases succeeds world with ⟨value, result⟩
  rw [result] at same
  cases same

theorem context : FindsCallables Bridge.context := .ofOk fun _ => ⟨_, rfl⟩

theorem store : FindsCallables Bridge.store := .ofOk fun _ => ⟨_, rfl⟩

theorem modifyContext (change : Context → Context) : FindsCallables (Bridge.modifyContext change) :=
  .ofOk fun _ => ⟨_, rfl⟩

theorem setStore (store : HostStore) : FindsCallables (Bridge.setStore store) := .ofOk fun _ => ⟨_, rfl⟩

end FindsCallables

end Bridge

namespace Host

open Bridge

variable {host : Host}

theorem findsCallables_toHost (value : ScriptValue) (type : TypeRef) :
    FindsCallables (host.toHost value type) := by
  intro world kind same
  rw [exec_toHost] at same
  cases value with
  | nil => cases same
  | boolean truth => cases same
  | function handle => cases same
  | proxy proxy =>
      dsimp only [Context.toHost] at same
      grind
  | _ =>
      dsimp only [Context.toHost] at same
      split at same
      next => cases same
      next => cases same

theorem findsCallables_fits (value : ScriptValue) (type : TypeRef) :
    FindsCallables (host.fits value type) :=
  .ofOk fun _ => ⟨_, rfl⟩

theorem findsCallables_push (value : HostValue) : FindsCallables (Bridge.asScript (host.push value)) :=
  .asScript _

theorem findsCallables_resolveOverload (group : OverloadGroup) (arguments : List ScriptValue) :
    FindsCallables (host.resolveOverload group arguments) := by
  refine .bind .context fun context => .bind (.modifyContext _) fun _ => ?_
  split
  · exact .pure _
  · exact .throw fun _ => ScriptError.noConfusion

theorem findsCallables_gatherArray (type element : TypeRef) (inputs : List ScriptValue) :
    FindsCallables (host.gatherArray type element inputs) :=
  .bind (.mapM _ fun _ => findsCallables_toHost _ _) fun _ => .bind .store fun _ =>
    .bind (.setStore _) fun _ => .pure _

theorem findsCallables_collectVariadic (type : TypeRef) (inputs : List ScriptValue) :
    FindsCallables (host.collectVariadic type inputs) := by
  refine .bind .context fun context => ?_
  dsimp only
  split
  · exact findsCallables_toHost _ _
  · split
    · exact .throw fun _ => ScriptError.noConfusion
    · exact findsCallables_gatherArray _ _ _

theorem findsCallables_hostArguments (specialization : Specialization) (parameters : List Parameter)
    (inputs : List ScriptValue) :
    FindsCallables (host.hostArguments specialization parameters inputs) := by
  induction parameters generalizing inputs with
  | nil => exact .pure _
  | cons parameter parameters ih =>
      rw [hostArguments]
      split
      · exact .throw fun _ => ScriptError.noConfusion
      · split
        · exact .bind (ih _) fun _ => .pure _
        · split
          · exact .bind (findsCallables_collectVariadic _ _) fun _ => .bind (ih _) fun _ => .pure _
          · exact .bind (findsCallables_toHost _ _) fun _ => .bind (ih _) fun _ => .pure _

theorem findsCallables_proxied (proxy : Proxy) (type : TypeRef) {wrong : ScriptError}
    (other : ∀ kind, wrong ≠ .notCallable kind) :
    FindsCallables (do
      match (← Bridge.context).cache.resolve? proxy with
      | none => throw (.staleProxy (host.fullName proxy.type))
      | some value =>
          if ← host.fits (.proxy proxy) type then return (value, proxy.key) else throw wrong) := by
  refine .bind .context fun context => ?_
  split
  · exact .throw fun _ => ScriptError.noConfusion
  · refine .bind (findsCallables_fits _ _) fun accepted => ?_
    split
    · exact .pure _
    · exact .throw other

theorem findsCallables_methodReceiver (group : OverloadGroup) (arguments : List ScriptValue) :
    FindsCallables (host.methodReceiver group arguments) := by
  simp only [methodReceiver]
  cases arguments.headD .nil with
  | proxy proxy =>
      apply findsCallables_proxied proxy group.owner
      exact fun _ => ScriptError.noConfusion
  | _ => exact .throw fun _ => ScriptError.noConfusion

theorem findsCallables_expectInstance (target : ScriptValue) (type : TypeRef) (activity : String) :
    FindsCallables (host.expectInstance target type activity) := by
  simp only [expectInstance]
  cases target with
  | proxy proxy =>
      apply findsCallables_proxied proxy type
      exact fun _ => ScriptError.noConfusion
  | _ => exact .throw fun _ => ScriptError.noConfusion

theorem findsCallables_freshInstance (type : TypeRef) : FindsCallables (host.freshInstance type) := by
  rw [freshInstance]
  dsimp only
  split
  · exact .pure _
  · exact .bind .store fun _ => .bind (.setStore _) fun _ => .pure _

theorem findsCallables_writeBack (key : Option ProxyKey) (receiver : Option HostValue) :
    FindsCallables (writeBack key receiver) := by
  simp only [writeBack]
  split
  · split
    · exact .modifyContext _
    · exact .pure _
  · exact .pure _

theorem findsCallables_receiverFor (group : OverloadGroup) (candidate : Candidate)
    (arguments : List ScriptValue) : FindsCallables (host.receiverFor group candidate arguments) := by
  rw [receiverFor]
  split
  · dsimp only
    split
    · exact .pure _
    · exact .bind (findsCallables_methodReceiver _ _) fun _ => .pure _
  · exact .bind (findsCallables_freshInstance _) fun _ => .pure _
  · exact .pure _

theorem findsCallables_callGroup (group : OverloadGroup) (arguments : List ScriptValue) :
    FindsCallables (host.callGroup group arguments) := by
  refine .bind (findsCallables_resolveOverload _ _) fun candidate => ?_
  refine .bind (findsCallables_hostArguments _ _ _) fun values => ?_
  refine .bind (findsCallables_receiverFor _ _ _) fun receiver => ?_
  refine .bind (.adapt fun _ _ => ScriptError.noConfusion) fun completion =>
    .bind (findsCallables_writeBack _ _) fun _ => ?_
  split
  · exact .bind (findsCallables_push _) fun _ => .pure _
  · exact .mapM _ fun _ => findsCallables_push _

theorem findsCallables_memberReceiver (isStatic : Bool) (type : TypeRef) (activity : String)
    (arguments : List ScriptValue) :
    FindsCallables (host.memberReceiver isStatic type activity arguments) := by
  rw [memberReceiver]
  split
  · exact .pure _
  · exact .bind (findsCallables_expectInstance _ _ _) fun _ => .pure _

theorem findsCallables_getField (field : Field) (arguments : List ScriptValue) :
    FindsCallables (host.getField field arguments) := by
  refine .bind (findsCallables_memberReceiver _ _ _ _) fun target => .bind .store fun store => ?_
  split
  · exact .bind (findsCallables_push _) fun _ => .pure _
  · exact .throw fun _ => ScriptError.noConfusion

theorem findsCallables_setField (field : Field) (arguments : List ScriptValue) :
    FindsCallables (host.setField field arguments) := by
  refine .bind (findsCallables_memberReceiver _ _ _ _) fun target => ?_
  refine .bind (findsCallables_fits _ _) fun accepted => ?_
  dsimp only
  split
  · apply FindsCallables.throw_bind
    exact fun _ => ScriptError.noConfusion
  · refine .bind (findsCallables_toHost _ _) fun converted => .bind .store fun store => ?_
    split
    · exact .bind (.setStore _) fun _ => .bind (findsCallables_writeBack _ _) fun _ => .pure _
    · exact .pure _

theorem findsCallables_getItemFrom (owner : TypeRef) (receiver : HostValue × ProxyKey) (key : ScriptValue)
    (properties : List PropertyDef) :
    FindsCallables (host.getItemFrom owner receiver key properties) := by
  induction properties with
  | nil => exact .pure _
  | cons property rest ih =>
      rw [getItemFrom]
      split
      · refine .bind (findsCallables_fits _ _) fun accepted => ?_
        split
        · refine .bind (findsCallables_toHost _ _) fun index =>
            .bind (.adapt fun _ _ => ScriptError.noConfusion) fun value => ?_
          exact .bind (findsCallables_push _) fun _ => .pure _
        · exact ih
      · exact ih

theorem findsCallables_getItem (owner : TypeRef) (properties : List PropertyDef)
    (arguments : List ScriptValue) : FindsCallables (host.getItem owner properties arguments) := by
  simp only [getItem]
  split
  · exact .pure _
  · exact .bind (findsCallables_expectInstance _ _ _) fun _ => findsCallables_getItemFrom _ _ _ _

theorem findsCallables_setItemIn (owner : TypeRef) (receiver : HostValue × ProxyKey) (key value : ScriptValue)
    (properties : List PropertyDef) :
    FindsCallables (host.setItemIn owner receiver key value properties) := by
  induction properties with
  | nil => exact .pure _
  | cons property rest ih =>
      rw [setItemIn]
      split
      · refine .bind (findsCallables_fits _ _) fun accepted => ?_
        split
        · refine .bind (findsCallables_fits _ _) fun taken => ?_
          split
          · exact .throw fun _ => ScriptError.noConfusion
          · refine .bind (findsCallables_toHost _ _) fun index => .bind (findsCallables_toHost _ _) fun item => ?_
            exact .bind (.discard (.adapt fun _ _ => ScriptError.noConfusion)) fun _ => .pure _
        · exact ih
      · exact ih

theorem findsCallables_setItem (owner : TypeRef) (properties : List PropertyDef)
    (arguments : List ScriptValue) : FindsCallables (host.setItem owner properties arguments) := by
  simp only [setItem]
  split
  · exact .pure _
  · exact .bind (findsCallables_expectInstance _ _ _) fun _ => findsCallables_setItemIn _ _ _ _ _

theorem findsCallables_changeEvent (owner : TypeRef) (event : EventDef) (arguments : List ScriptValue) :
    FindsCallables (host.changeEvent owner event arguments) := by
  refine .bind (findsCallables_memberReceiver _ _ _ _) fun receiver => ?_
  dsimp only
  split
  · exact .throw fun _ => ScriptError.noConfusion
  · split
    · refine .bind (findsCallables_toHost _ _) fun delegate => ?_
      exact .bind (.discard (.adapt fun _ _ => ScriptError.noConfusion)) fun _ => .pure _
    · exact .throw fun _ => ScriptError.noConfusion

theorem findsCallables_constructGroup (group : OverloadGroup) (arguments : List ScriptValue) :
    FindsCallables (host.constructGroup group arguments) := by
  rw [constructGroup]
  split
  · exact .bind (findsCallables_push _) fun _ => .pure _
  · split
    · exact .throw fun _ => ScriptError.noConfusion
    · exact findsCallables_callGroup _ _

theorem findsCallables_castToEnum (type : TypeRef) (arguments : List ScriptValue) :
    FindsCallables (host.castToEnum type arguments) := by
  refine .bind .context fun context => ?_
  split
  · exact .bind (findsCallables_push _) fun _ => .pure _
  · exact .throw fun _ => ScriptError.noConfusion

theorem findsCallables_wrapDelegate (type : TypeRef) (arguments : List ScriptValue) :
    FindsCallables (host.wrapDelegate type arguments) := by
  simp only [wrapDelegate]
  split
  · exact .bind (findsCallables_push _) fun _ => .pure _
  · exact .throw fun _ => ScriptError.noConfusion

/-- A generated callable has all that it needs. -/
theorem findsCallables_runMember {callable : Callable} (generated : callable.isGenerated = true)
    (arguments : List ScriptValue) : FindsCallables (host.runMember callable arguments) := by
  cases callable with
  | method group => exact findsCallables_callGroup _ _
  | fieldGetter field => exact findsCallables_getField _ _
  | fieldSetter field => exact findsCallables_setField _ _
  | itemGetter owner properties => exact findsCallables_getItem _ _ _
  | itemSetter owner properties => exact findsCallables_setItem _ _ _
  | event owner event => exact findsCallables_changeEvent _ _ _
  | constructor group => exact findsCallables_constructGroup _ _
  | delegateConstructor type => exact findsCallables_wrapDelegate _ _
  | enumCast type => exact findsCallables_castToEnum _ _
  | placeholder member => cases generated
  | embedder name body => cases generated

theorem generated_of_resolved {member : PendingMember} {world after : World} {handle : CallableHandle}
    (wired : world.context.Wired host.system)
    (resolved : exec (host.resolveMember member) world = (.ok handle, after)) :
    ∃ callable, after.context.callable? handle = some callable ∧ callable.isGenerated = true := by
  have leads := host.resolved_resolveMember member world
  rw [resolved] at leads
  cases leads with
  | @present binding handle bound made =>
      have slotWired := (wired.bindings _ _ bound).slots _ (FinMap.mem_entries_of_get? made)
      rcases slotWired with ⟨callable, registered, serves⟩
      exact ⟨callable, registered, serves.isGenerated⟩
  | @made binding listed handle after bound waits found registered callable =>
      refine ⟨_, ?_, Callable.isGenerated_ofMember host.system member.type listed⟩
      exact (callable?_settled member handle handle after).trans callable

theorem findsCallables_resolveMember (member : PendingMember) : FindsCallables (host.resolveMember member) := by
  refine .bind .context fun context => ?_
  split
  · exact .throw fun _ => ScriptError.noConfusion
  · split
    · exact .pure _
    · refine .bind (.ofOk fun world => ?_) fun extensions => ?_
      · exact ⟨_, congrArg Prod.fst (host.exec_extensionMap world)⟩
      · dsimp only
        split
        · exact .throw fun _ => ScriptError.noConfusion
        · refine .bind (.asScript _) fun handle => .bind (.modifyContext _) fun _ => ?_
          exact .bind (.modifyContext _) fun _ => .pure _

variable {world : World} {arguments : List ScriptValue}

/-- A placeholder that is called runs the callable that it was resolved to, and nothing else. -/
theorem exec_call_placeholder (wired : world.context.Wired host.system) {handle : CallableHandle}
    {member : PendingMember} (waits : world.context.callable? handle = some (.placeholder member))
    (arguments : List ScriptValue) :
    (∃ error after, exec (host.resolveMember member) world = (.error error, after) ∧
      exec (host.call (.function handle) arguments) world = (.error error, after)) ∨
    ∃ made callable after, exec (host.resolveMember member) world = (.ok made, after) ∧
      after.context.callable? made = some callable ∧ callable.isGenerated = true ∧
      exec (host.call (.function handle) arguments) world =
        exec (host.runMember callable arguments) after := by
  have called : exec (host.call (.function handle) arguments) world =
      exec (host.runPlaceholder member arguments) world :=
    exec_invoke_of_placeholder waits arguments
  cases resolved : exec (host.resolveMember member) world with
  | mk result after =>
      cases result with
      | error error => exact .inl ⟨error, after, rfl, called.trans (exec_bind_of_error resolved _)⟩
      | ok made =>
          rcases generated_of_resolved wired resolved with ⟨callable, registered, generated⟩
          refine .inr ⟨made, callable, after, rfl, registered, generated, called.trans ?_⟩
          rw [runPlaceholder, exec_bind_of_ok resolved, exec_bind_of_ok (exec_context after), registered]

/-- A call through a slot always finds something to call. -/
theorem exec_call_slot (wired : world.context.Wired host.system) {type : TypeRef} {binding : TypeBinding}
    (bound : world.context.binding? type = some binding) {table : MemberTable} {name : String}
    {slot : MemberSlot} (present : binding.slot? table name = some slot) (kind : String) :
    (exec (host.call (.function slot.handle) arguments) world).1 ≠ .error (.notCallable kind) := by
  have slotWired := (wired.bindings type binding bound).slots _ (FinMap.mem_entries_of_get? present)
  cases slot with
  | bound handle =>
      rcases slotWired with ⟨callable, registered, serves⟩
      have called : exec (host.call (.function handle) arguments) world =
          exec (host.runMember callable arguments) world :=
        exec_invoke_of_generated registered serves.isGenerated arguments
      rw [MemberSlot.handle, called]
      exact findsCallables_runMember serves.isGenerated arguments world kind
  | unbound handle =>
      rcases slotWired with ⟨member, registered, -⟩
      rcases exec_call_placeholder wired registered arguments with
        ⟨error, after, failed, called⟩ | ⟨made, callable, after, -, -, generated, called⟩
      -- The call fails just as the placeholder does to be resolved.
      · intro same
        rw [MemberSlot.handle, called] at same
        rcases Except.error.inj same with rfl
        exact findsCallables_resolveMember member world kind (congrArg Prod.fst failed)
      · rw [MemberSlot.handle, called]
        exact findsCallables_runMember generated arguments after kind

end Host

end ScriptBridge
