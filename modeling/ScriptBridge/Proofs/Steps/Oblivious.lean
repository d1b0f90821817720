import ScriptBridge.Context.Calls
import ScriptBridge.Proofs.Conversion.Choice
import ScriptBridge.Proofs.Identity.Consistency
import ScriptBridge.Proofs.Steps.Exec

/-!
# Operations that do not ask what is bound

Which types are bound matters to lookups and to what is handed out. Everything that a
member does before that is oblivious of it: it does the same whatever is bound, and
binds nothing. The lemmas build such operations from their parts.
-/

namespace ScriptBridge

/-- What was live in a cache is live in a later one. -/
structure IdentityCache.Survives (cache later : IdentityCache) : Prop where
  consistent : later.Consistent
  owns : ∀ proxy, cache.owns proxy = true → later.owns proxy = true

namespace IdentityCache.Survives

variable {cache middle later : IdentityCache}

theorem refl (consistent : cache.Consistent) : cache.Survives cache := ⟨consistent, fun _ => id⟩

theorem trans (first : cache.Survives middle) (second : middle.Survives later) : cache.Survives later :=
  ⟨second.consistent, fun proxy owned => second.owns proxy (first.owns proxy owned)⟩

theorem update (consistent : cache.Consistent) (key : ProxyKey) (value : HostValue) :
    cache.Survives (cache.update key value) := by
  rw [IdentityCache.update]
  cases updated : cache.update? key value with
  | none => exact refl consistent
  | some changed =>
      refine ⟨consistent.update? updated, fun proxy owned => ?_⟩
      have tag : changed.tag = cache.tag := by
        rcases Option.map_eq_some_iff.mp updated with ⟨entry, -, rfl⟩
        rfl
      rcases Option.isSome_iff_exists.mp owned with ⟨found, resolved⟩
      rcases resolve?_eq_some_iff.mp resolved with ⟨own, entry, live, -⟩
      rw [Option.getD_some, IdentityCache.owns, resolve?, tag, if_pos own, get?, lookup?_update? updated, Option.isSome_map]
      split
      next same => rw [← same, live]; rfl
      next => rw [live]; rfl

end IdentityCache.Survives

/-- The world with other types bound. -/
def World.rebound (world : World) (bindings : FinMap TypeRef TypeBinding) (namespaces : NamespaceTree) : World :=
  { world with context := { world.context with bindings := bindings, namespaces := namespaces } }

open Bridge

variable {ε δ α β : Type}

/-- The operation does the same in a world that was changed. It lets no proxy go. -/
structure CommutesWith (change : World → World) (action : Bridge ε α) : Prop where
  same : ∀ world, exec action (change world) = ((exec action world).1, change (exec action world).2)
  survives : ∀ world : World, world.context.cache.Consistent →
    world.context.cache.Survives (exec action world).2.context.cache

namespace CommutesWith

variable {change : World → World}

theorem bind {action : Bridge ε α} {next : α → Bridge ε β} (first : CommutesWith change action)
    (second : ∀ value, CommutesWith change (next value)) : CommutesWith change (action >>= next) where
  same world := by
    rw [exec_bind, exec_bind, first.same]
    cases exec action world with
    | mk result middle =>
        cases result with
        | error error => rfl
        | ok value => exact (second value).same middle
  survives world consistent := by
    have begins := first.survives world consistent
    rw [exec_bind]
    generalize exec action world = run at begins
    rcases run with ⟨result, middle⟩
    cases result with
    | error error => exact begins
    | ok value => exact begins.trans ((second value).survives middle begins.consistent)

theorem adapt {action : Bridge ε α} (adjust : ε → δ) (commutes : CommutesWith change action) :
    CommutesWith change (ExceptT.adapt adjust action) where
  same world := by rw [exec_adapt, exec_adapt, commutes.same]
  survives world consistent := by
    rw [exec_adapt]
    exact commutes.survives world consistent

theorem discard {action : Bridge ε α} (commutes : CommutesWith change action) :
    CommutesWith change (Functor.discard action) where
  same world := by rw [exec_discard, exec_discard, commutes.same]
  survives world consistent := by
    rw [exec_discard]
    exact commutes.survives world consistent

/-- Of the context only what was not changed is looked at. -/
theorem context {next : Context → Bridge ε β}
    (looks : ∀ world, next (change world).context = next world.context)
    (second : ∀ context, CommutesWith change (next context)) : CommutesWith change (Bridge.context >>= next) where
  same world := by
    rw [exec_bind_of_ok (exec_context _), exec_bind_of_ok (exec_context _), looks]
    exact (second world.context).same world
  survives world := by
    rw [exec_bind_of_ok (exec_context _)]
    exact (second world.context).survives world

end CommutesWith

/-- The operation does the same whatever is bound, and binds nothing. It lets no proxy go. -/
def Oblivious (action : Bridge ε α) : Prop :=
  ∀ bindings namespaces, CommutesWith (·.rebound bindings namespaces) action

namespace Oblivious

theorem pure (value : α) : Oblivious (Pure.pure value : Bridge ε α) := fun _ _ => ⟨fun _ => rfl, fun _ => .refl⟩

theorem throw (error : ε) : Oblivious (MonadExcept.throw error : Bridge ε α) :=
  fun _ _ => ⟨fun _ => rfl, fun _ => .refl⟩

theorem bind {action : Bridge ε α} {next : α → Bridge ε β} (first : Oblivious action)
    (second : ∀ value, Oblivious (next value)) : Oblivious (action >>= next) :=
  fun bindings namespaces => (first bindings namespaces).bind fun value => second value bindings namespaces

theorem adapt {action : Bridge ε α} (adjust : ε → δ) (oblivious : Oblivious action) :
    Oblivious (ExceptT.adapt adjust action) :=
  fun bindings namespaces => (oblivious bindings namespaces).adapt adjust

theorem discard {action : Bridge ε α} (oblivious : Oblivious action) : Oblivious (Functor.discard action) :=
  fun bindings namespaces => (oblivious bindings namespaces).discard

theorem ofExcept (result : Except ε α) : Oblivious (Bridge.ofExcept result) := by
  cases result with
  | error error => exact throw error
  | ok value => exact pure value

theorem store : Oblivious (Bridge.store : Bridge ε HostStore) := fun _ _ => ⟨fun _ => rfl, fun _ => .refl⟩

theorem setStore (store : HostStore) : Oblivious (Bridge.setStore store : Bridge ε Unit) :=
  fun _ _ => ⟨fun _ => rfl, fun _ => .refl⟩

/-- Of the context only what is not bound is looked at. -/
theorem context {next : Context → Bridge ε β}
    (looks : ∀ (context : Context) bindings namespaces,
      next { context with bindings := bindings, namespaces := namespaces } = next context)
    (second : ∀ context, Oblivious (next context)) : Oblivious (Bridge.context >>= next) :=
  fun bindings namespaces =>
    .context (fun world => looks world.context bindings namespaces) fun context => second context bindings namespaces

/-- Of the context something is changed that is not bound. -/
theorem modifyContext {change : Context → Context}
    (apart : ∀ (context : Context) bindings namespaces,
      change { context with bindings := bindings, namespaces := namespaces } =
        { change context with bindings := bindings, namespaces := namespaces })
    (survives : ∀ context : Context, context.cache.Consistent → context.cache.Survives (change context).cache) :
    Oblivious (Bridge.modifyContext change : Bridge ε Unit) := by
  refine fun bindings namespaces => ⟨fun world => ?_, fun world => survives world.context⟩
  rw [exec_modifyContext, exec_modifyContext, World.rebound, apart]
  rfl

theorem mapM {next : α → Bridge ε β} (each : ∀ item, Oblivious (next item)) (items : List α) :
    Oblivious (items.mapM next) := by
  induction items with
  | nil => exact .pure _
  | cons item rest ih =>
      rw [List.mapM_cons]
      exact bind (each item) fun _ => bind ih fun _ => .pure _

theorem updateProxy (key : ProxyKey) (value : HostValue) : Oblivious (Bridge.updateProxy key value : Bridge ε Unit) :=
  modifyContext (fun _ _ _ => rfl) fun _ consistent => .update consistent key value

theorem count (change : BindingCounters → BindingCounters) : Oblivious (Bridge.count change : Bridge ε Unit) :=
  modifyContext (fun _ _ _ => rfl) fun _ => .refl

theorem register (callable : Callable) : Oblivious (Bridge.register callable) := by
  have adds (handle : CallableHandle) : Oblivious (do
      Bridge.modifyContext fun context => { context with callables := context.callables.push callable }
      return handle : Bridge BindError CallableHandle) :=
    .bind (.modifyContext (fun _ _ _ => rfl) fun _ => .refl) fun _ => .pure _
  refine .context (fun _ _ _ => rfl) fun context => ?_
  dsimp only
  split
  · exact .bind (.throw _) fun _ => adds _
  · exact adds _

end Oblivious

namespace Host

variable {host : Host}

theorem oblivious_extensionMap : Oblivious (host.extensionMap : Bridge ε (Option ExtensionMap)) := by
  refine .context (fun _ _ _ => rfl) fun context => ?_
  split
  · exact .pure _
  · split
    · exact .pure _
    · exact .bind (.modifyContext (fun _ _ _ => rfl) fun _ => .refl) fun _ => .pure _

theorem oblivious_fits (value : ScriptValue) (type : TypeRef) : Oblivious (host.fits value type : Bridge ε Bool) :=
  .context (fun _ _ _ => rfl) fun _ => .pure _

theorem oblivious_toHost (value : ScriptValue) (type : TypeRef) : Oblivious (host.toHost value type) :=
  .context (fun _ _ _ => rfl) fun _ => .ofExcept _

theorem oblivious_writeBack (key : Option ProxyKey) (receiver : Option HostValue) :
    Oblivious (writeBack key receiver : Bridge ε Unit) := by
  simp only [writeBack]
  split
  · split
    · exact .updateProxy _ _
    · exact .pure _
  · exact .pure _

theorem oblivious_runNative (method : MethodDef) (invocation : Invocation) :
    Oblivious (host.runNative method invocation) :=
  .bind .store fun _ => .bind (.setStore _) fun _ => .ofExcept _

theorem oblivious_runAccessor (owner : TypeRef) (method : MethodDef) (receiver : Option (HostValue × ProxyKey))
    (values : List HostValue) : Oblivious (host.runAccessor owner method receiver values) :=
  .bind (oblivious_runNative _ _) fun _ => .bind (oblivious_writeBack _ _) fun _ => .pure _

theorem oblivious_freshInstance (type : TypeRef) : Oblivious (host.freshInstance type : Bridge ε HostValue) := by
  rw [freshInstance]
  split
  · exact .pure _
  · exact .bind .store fun _ => .bind (.setStore _) fun _ => .pure _

theorem oblivious_resolveOverload (group : OverloadGroup) (arguments : List ScriptValue) :
    Oblivious (host.resolveOverload group arguments) := by
  refine .context (fun context bindings namespaces => ?_) fun context => .bind (.count _) fun _ => ?_
  · rw [Context.choose?_congr (List.forall₂_same.mpr fun _ _ => ?_) group]
    exact fun _ => rfl
  · split
    · exact .pure _
    · exact .throw _

theorem oblivious_gatherArray (type element : TypeRef) (inputs : List ScriptValue) :
    Oblivious (host.gatherArray type element inputs) :=
  .bind (.mapM (fun input => oblivious_toHost input element) inputs) fun _ => .bind .store fun _ =>
    .bind (.setStore _) fun _ => .pure _

theorem oblivious_collectVariadic (type : TypeRef) (inputs : List ScriptValue) :
    Oblivious (host.collectVariadic type inputs) := by
  refine .context (fun _ _ _ => rfl) fun context => ?_
  dsimp only
  split
  · exact oblivious_toHost _ type
  · split
    · exact .throw _
    · exact oblivious_gatherArray _ _ _

theorem oblivious_hostArguments (specialization : Specialization) (parameters : List Parameter)
    (inputs : List ScriptValue) : Oblivious (host.hostArguments specialization parameters inputs) := by
  induction parameters generalizing inputs with
  | nil => exact .pure _
  | cons parameter rest ih =>
      rw [hostArguments]
      split
      · exact .throw _
      · split
        · exact .bind (ih _) fun _ => .pure _
        · split
          · exact .bind (oblivious_collectVariadic _ _) fun _ => .bind (ih _) fun _ => .pure _
          · exact .bind (oblivious_toHost _ _) fun _ => .bind (ih _) fun _ => .pure _

theorem oblivious_methodReceiver (group : OverloadGroup) (arguments : List ScriptValue) :
    Oblivious (host.methodReceiver group arguments) := by
  rw [methodReceiver]
  split
  · refine .context (fun _ _ _ => rfl) fun context => ?_
    split
    · exact .throw _
    · refine .bind (oblivious_fits _ _) fun _ => ?_
      split
      · exact .pure _
      · exact .throw _
  · exact .throw _

theorem oblivious_receiverFor (group : OverloadGroup) (candidate : Candidate) (arguments : List ScriptValue) :
    Oblivious (host.receiverFor group candidate arguments) := by
  rw [receiverFor]
  split
  · split
    · exact .pure _
    · exact .bind (oblivious_methodReceiver _ _) fun _ => .pure _
  · exact .bind (oblivious_freshInstance _) fun _ => .pure _
  · exact .pure _

theorem oblivious_expectInstance (target : ScriptValue) (type : TypeRef) (activity : String) :
    Oblivious (host.expectInstance target type activity) := by
  cases target with
  | proxy proxy =>
      refine .context (fun _ _ _ => rfl) fun context => ?_
      split
      · exact .throw _
      · refine .bind (oblivious_fits _ _) fun _ => ?_
        split
        · exact .pure _
        · exact .throw _
  | _ => exact .throw _

theorem oblivious_memberReceiver (isStatic : Bool) (type : TypeRef) (activity : String) (arguments : List ScriptValue) :
    Oblivious (host.memberReceiver isStatic type activity arguments) := by
  rw [memberReceiver]
  split
  · exact .pure _
  · exact .bind (oblivious_expectInstance _ _ _) fun _ => .pure _

end Host

end ScriptBridge
