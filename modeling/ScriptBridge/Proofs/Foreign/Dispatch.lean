import ScriptBridge.Proofs.Foreign.Chains

/-!
# Script operations see no proxies of other contexts

Reading, writing and calling do the same for values that resemble each other. A target
that another context made is refused, whatever its key. What dispatch tables lead to are
functions of members; only calls of values can reach a function of the embedder, and these
are followed where it is discreet.
-/

namespace ScriptBridge

open Bridge

variable {swap : KeySwap}

theorem IdentityCache.release?_tag {cache changed : IdentityCache} {key : ProxyKey} {value : HostValue}
    (released : cache.release? key = some (value, changed)) : changed.tag = cache.tag := by
  rcases Option.map_eq_some_iff.mp released with ⟨entry, -, same⟩
  rcases Prod.mk.inj same with ⟨-, rfl⟩
  rfl

namespace Host

variable {host : Host} {invoke : Invoker} {world twin : World}
  {target targetTwin key keyTwin item itemTwin : ScriptValue}

theorem staticSetter?_eq {context other : Context} (resembles : context.Resembles swap other) (name : String)
    (chain : List TypeRef) : staticSetter? other name chain = staticSetter? context name chain := by
  simp only [staticSetter?, resembles.bindings_eq]

theorem operatorOf?_eq {context other : Context} (resembles : context.Resembles swap other)
    (values : item.Resembles swap itemTwin) (operator : Operator) :
    operatorOf? other itemTwin operator = operatorOf? context item operator := by
  cases values with
  | same => simp only [operatorOf?, resembles.bindings_eq]
  | foreign =>
      simp only [operatorOf?, resembles.bindings_eq]
      rfl

/-- What messages call an operand. -/
theorem operandName_eq (values : item.Resembles swap itemTwin) :
    (itemTwin.asProxy?.map fun proxy => host.fullName proxy.type).getD itemTwin.kindName =
      (item.asProxy?.map fun proxy => host.fullName proxy.type).getD item.kindName := by
  cases values <;> rfl

theorem generated_of_operatorOf? {context : Context} (wired : context.Wired host.system) {operand : ScriptValue}
    {operator : Operator} {handle : CallableHandle} (found : operatorOf? context operand operator = some handle) :
    context.Generated handle := by
  rcases Option.bind_eq_some_iff.mp found with ⟨proxy, -, found⟩
  rcases Option.bind_eq_some_iff.mp found with ⟨binding, bound, present⟩
  have works := (wired.bindings proxy.type binding bound).operators _ (FinMap.mem_entries_of_get? present)
  exact Context.generated_of_worksUnder works.worksUnder

theorem targetName_eq {context other : Context} (resembles : context.Resembles swap other)
    (targets : target.Resembles swap targetTwin) :
    host.targetName other targetTwin = host.targetName context target := by
  cases targets with
  | same =>
      cases target with
      | table id => simp only [targetName, resembles.typeOf?_eq]
      | _ => rfl
  | foreign => rfl

/-- Nothing is found behind a proxy that another context made. -/
theorem exec_liveValue_foreign {key : ProxyKey} {type : TypeRef} {tag : CacheTag}
    (elsewhere : tag ≠ world.context.cache.tag) :
    exec (host.liveValue ⟨key, type, tag⟩) world = (.error (.staleProxy (host.fullName type)), world) := by
  have dead : world.context.cache.resolve? ⟨key, type, tag⟩ = none := if_neg elsewhere
  rw [liveValue, exec_bind_of_ok (exec_context world), dead]
  rfl

theorem exec_indexBy_foreign {proxyKey : ProxyKey} {type : TypeRef} {tag : CacheTag}
    (elsewhere : tag ≠ world.context.cache.tag) :
    exec (host.indexBy invoke (.proxy ⟨proxyKey, type, tag⟩) key) world =
      (.error (.staleProxy (host.fullName type)), world) :=
  exec_bind_of_error (exec_liveValue_foreign elsewhere) _

theorem exec_assignBy_foreign {proxyKey : ProxyKey} {type : TypeRef} {tag : CacheTag}
    (elsewhere : tag ≠ world.context.cache.tag) :
    exec (host.assignBy invoke (.proxy ⟨proxyKey, type, tag⟩) key item) world =
      (.error (.staleProxy (host.fullName type)), world) :=
  exec_bind_of_error (exec_liveValue_foreign elsewhere) _

theorem mirrors_indexNamespace (keys : key.Resembles swap keyTwin) (table : TableId) (path : String) :
    Mirrors swap Eq (host.indexNamespace table path key) (host.indexNamespace table path keyTwin) := by
  simp only [indexNamespace, keys.asString?_eq]
  split
  · exact .pure rfl
  · split
    · exact blind_loadClass _
    · split
      · exact .after (Blind.createTable _) fun deeper => .after (Blind.writeEntry _ _ _) fun _ => .pure rfl
      · exact .pure rfl

theorem mirrors_release (values : item.Resembles swap itemTwin) :
    Mirrors swap Eq (release item : Bridge ScriptError Bool) (release itemTwin) := by
  intro world twin worlds
  simp only [release, exec_bind_of_ok (exec_context _), worlds.context.cache_eq]
  cases values with
  | foreign given =>
      have elsewhere := swap.elsewhere given
      simp only [worlds.context.owns_foreign elsewhere]
      exact .pure worlds rfl
  | same =>
      split
      · split
        · split
          next value released freed =>
            let change (context : Context) : Context := { context with cache := released }
            have changed : (change world.context).Resembles swap (change twin.context) :=
              worlds.context.change (fun _ => rfl) (IdentityCache.release?_tag freed)
            exact ⟨⟨worlds.store, changed, worlds.reports⟩, .ok rfl, .of_callables rfl⟩
          next => exact .pure worlds rfl
        · exact .pure worlds rfl
      · exact .pure worlds rfl

section Calls

variable (invokes : Invoker.Discreet host swap invoke) (worlds : world.Resembles swap twin)
  (wired : world.context.Wired host.system)

include invokes worlds wired

omit invokes in
/-- What is done before a chain is walked: the instance is looked up, and its type is bound. -/
theorem endsAlike_ready {α : Type} {related : α → α → Prop} (proxy : Proxy)
    {next otherNext : HostValue → List TypeRef → Bridge ScriptError α}
    (continues : ∀ value chain middle otherMiddle, middle.Resembles swap otherMiddle →
      middle.context.Wired host.system →
      EndsAlike swap related middle (exec (next value chain) middle) (exec (otherNext value chain) otherMiddle)) :
    EndsAlike swap related world
      (exec (do
        let value ← host.liveValue proxy
        Bridge.asScript (host.ensureBound proxy.type)
        let chain := (← Bridge.context).lookupChain host.system proxy.type
        next value chain) world)
      (exec (do
        let value ← host.liveValue proxy
        Bridge.asScript (host.ensureBound proxy.type)
        let chain := (← Bridge.context).lookupChain host.system proxy.type
        otherNext value chain) twin) := by
  refine (mirrors_liveValue proxy _ _ worlds).bindWired (keptBy_liveValue proxy) wired
    fun value other middle otherMiddle worlds wired _ same => ?_
  rcases same with rfl
  refine (blind_ensureBound proxy.type _ _ worlds).bindWired ((respects_wiring host).ensureBound _).asScript wired
    fun _ _ middle otherMiddle worlds wired _ _ => ?_
  simp only [exec_bind_of_ok (exec_context _), worlds.context.lookupChain_eq]
  exact continues value _ middle otherMiddle worlds wired

theorem endsAlike_indexInstance (proxy : Proxy) (keys : key.Resembles swap keyTwin) :
    EndsAlike swap (ScriptValue.Resembles swap) world (exec (host.indexInstance invoke proxy key) world)
      (exec (host.indexInstance invoke proxy keyTwin) twin) :=
  endsAlike_ready worlds wired proxy fun value chain _ _ worlds wired =>
    endsAlike_readAlong invokes worlds wired proxy value keys chain

theorem endsAlike_assignInstance (proxy : Proxy) (keys : key.Resembles swap keyTwin)
    (items : item.Resembles swap itemTwin) :
    EndsAlike swap Eq world (exec (host.assignInstance invoke proxy key item) world)
      (exec (host.assignInstance invoke proxy keyTwin itemTwin) twin) :=
  endsAlike_ready worlds wired proxy fun value chain _ _ worlds wired =>
    endsAlike_writeAlong invokes worlds wired proxy value keys items chain

theorem endsAlike_indexType (type : TypeRef) (keys : key.Resembles swap keyTwin) :
    EndsAlike swap (ScriptValue.Resembles swap) world (exec (host.indexType invoke type key) world)
      (exec (host.indexType invoke type keyTwin) twin) := by
  simp only [indexType, keys.asString?_eq]
  split
  · exact .pure worlds (.same _)
  · simp only [exec_bind_of_ok (exec_context _), worlds.context.lookupChain_eq]
    refine (endsAlike_readStaticAlong invokes worlds wired _ _ _).bind
      fun found other middle otherMiddle _ worlds _ entries => ?_
    cases entries with
    | some values => exact .pure worlds values
    | none =>
        dsimp only
        split
        · exact (blind_loadClass _ _ _ worlds).mono fun value _ same => same ▸ .same value
        · exact .pure worlds (.same _)

theorem endsAlike_indexTable (id : TableId) (keys : key.Resembles swap keyTwin) :
    EndsAlike swap (ScriptValue.Resembles swap) world (exec (host.indexTable invoke id key) world)
      (exec (host.indexTable invoke id keyTwin) twin) := by
  simp only [indexTable, exec_bind_of_ok (exec_context _), keys.ofValue?_eq, worlds.context.heap.kind?_eq]
  have entries : ((ScriptKey.ofValue? key).elim .nil (world.context.heap.get id)).Resembles swap
      ((ScriptKey.ofValue? key).elim .nil (twin.context.heap.get id)) := by
    cases ScriptKey.ofValue? key with
    | none => exact .same _
    | some entry => exact worlds.context.get id entry
  rw [entries.isNil_eq]
  split
  · exact .pure worlds entries
  · split
    · exact endsAlike_indexType invokes worlds wired _ keys
    · exact (mirrors_indexNamespace keys _ _ _ _ worlds).mono fun value _ same => same ▸ .same value
    · exact .pure worlds (.same _)

theorem endsAlike_indexBy (targets : target.Resembles swap targetTwin) (keys : key.Resembles swap keyTwin) :
    EndsAlike swap (ScriptValue.Resembles swap) world (exec (host.indexBy invoke target key) world)
      (exec (host.indexBy invoke targetTwin keyTwin) twin) := by
  cases targets with
  | same =>
      cases target with
      | proxy proxy => exact endsAlike_indexInstance invokes worlds wired proxy keys
      | table id => exact endsAlike_indexTable invokes worlds wired id keys
      | _ => exact .throw worlds _
  | foreign given =>
      have first := worlds.context.tag ▸ swap.elsewhere given
      have second := worlds.context.cache_eq ▸ first
      rw [exec_indexBy_foreign first, exec_indexBy_foreign second]
      exact .throw worlds _

theorem endsAlike_assignType (type : TypeRef) (keys : key.Resembles swap keyTwin)
    (items : item.Resembles swap itemTwin) :
    EndsAlike swap Eq world (exec (host.assignType invoke type key item) world)
      (exec (host.assignType invoke type keyTwin itemTwin) twin) := by
  simp only [assignType, exec_bind_of_ok (exec_context _), worlds.context.lookupChain_eq, keys.asString?_eq,
    staticSetter?_eq worlds.context, noSuchField, keys.keyText_eq]
  split
  next slot found =>
    have generated := wired.generated_staticSetter found
    exact (invokes.alike (.cons items .nil) worlds wired (.inl generated)).map fun _ _ _ => rfl
  next => exact .throw worlds _

theorem endsAlike_assignTable (id : TableId) (keys : key.Resembles swap keyTwin)
    (items : item.Resembles swap itemTwin) :
    EndsAlike swap Eq world (exec (host.assignTable invoke id key item) world)
      (exec (host.assignTable invoke id keyTwin itemTwin) twin) := by
  simp only [assignTable, keys.ofValue?_eq, keys.kindName_eq]
  split
  · exact .throw worlds _
  next entry _ =>
    simp only [exec_bind_of_ok (exec_context _), worlds.context.typeOf?_eq, (worlds.context.get id entry).isNil_eq]
    have written := @Blind.writeKey swap ScriptError id entry item itemTwin items world twin worlds
    split
    · split
      · exact endsAlike_assignType invokes worlds wired _ keys items
      · exact written
    · exact written

theorem endsAlike_assignBy (targets : target.Resembles swap targetTwin) (keys : key.Resembles swap keyTwin)
    (items : item.Resembles swap itemTwin) :
    EndsAlike swap Eq world (exec (host.assignBy invoke target key item) world)
      (exec (host.assignBy invoke targetTwin keyTwin itemTwin) twin) := by
  cases targets with
  | same =>
      cases target with
      | proxy proxy => exact endsAlike_assignInstance invokes worlds wired proxy keys items
      | table id => exact endsAlike_assignTable invokes worlds wired id keys items
      | _ => exact .throw worlds _
  | foreign given =>
      have first := worlds.context.tag ▸ swap.elsewhere given
      have second := worlds.context.cache_eq ▸ first
      rw [exec_assignBy_foreign first, exec_assignBy_foreign second]
      exact .throw worlds _

variable {arguments twins : List ScriptValue} (resemble : ResembleAll swap arguments twins)

include resemble

/-- Every target is called with the same, and the results are those of the last one. -/
theorem endsAlike_callTargets (delegate : Delegate)
    (discreet : ∀ target ∈ delegate.targets, world.context.DiscreetTarget swap target) :
    EndsAlike swap (ResembleAll swap) world (exec (host.callTargets invoke delegate arguments) world)
      (exec (host.callTargets invoke delegate twins) twin) := by
  have persists {before after : Context} (adds : before.AddsNoEmbedder after) (target : UInt64)
      (discreet : before.DiscreetTarget swap target) : after.DiscreetTarget swap target := adds.discreetTarget discreet
  refine EndsAlike.foldlM persists (fun _ target => ?_) (fun _ _ target world twin worlds wired discreet _ => ?_)
    delegate.targets worlds wired discreet .nil
  · split
    · exact invokes.keeps _ _
    · exact .throw _
  · split
    next handle known => exact invokes.alike resemble worlds wired (discreet handle known)
    next => exact .throw worlds _

theorem endsAlike_constructBy (functions : item.Resembles swap itemTwin) :
    EndsAlike swap (ResembleAll swap) world (exec (host.constructBy invoke item arguments) world)
      (exec (host.constructBy invoke itemTwin twins) twin) := by
  have sameType : itemTwin.asTable?.bind twin.context.heap.typeOf? = item.asTable?.bind world.context.heap.typeOf? := by
    rw [functions.asTable?_eq]
    exact congrArg item.asTable?.bind (funext worlds.context.typeOf?_eq)
  rw [constructBy, constructBy, exec_bind_of_ok (exec_context world), exec_bind_of_ok (exec_context twin), sameType,
    functions.kindName_eq]
  cases item.asTable?.bind world.context.heap.typeOf? with
  | none => exact .throw worlds _
  | some type =>
      dsimp only
      rw [worlds.context.bindings_eq]
      cases bound : world.context.binding? type with
      | none => exact .throw worlds _
      | some binding =>
          dsimp only
          split
          next handle given =>
            have works := (wired.bindings type binding bound).constructor handle given
            exact invokes.alike resemble worlds wired (.inl (Context.generated_of_worksUnder works.worksUnder))
          next => exact .throw worlds _

theorem endsAlike_callBy (functions : item.Resembles swap itemTwin) (harmless : world.context.Harmless swap item) :
    EndsAlike swap (ResembleAll swap) world (exec (host.callBy invoke item arguments) world)
      (exec (host.callBy invoke itemTwin twins) twin) := by
  cases functions with
  | same =>
      cases item with
      | function handle => exact invokes.alike resemble worlds wired harmless
      | proxy proxy =>
          simp only [callBy, exec_bind_of_ok (exec_context _), worlds.context.cache_eq]
          split
          next delegate found =>
            exact endsAlike_callTargets invokes worlds wired resemble delegate (harmless delegate found)
          next => exact .throw worlds _
          next => exact .throw worlds _
      | table id =>
          simp only [callBy, exec_bind_of_ok (exec_context _), worlds.context.typeOf?_eq]
          split
          · exact endsAlike_constructBy invokes worlds wired resemble (.same _)
          · exact .throw worlds _
      | _ => exact .throw worlds _
  | foreign given =>
      have elsewhere := swap.elsewhere given
      simp only [callBy, exec_bind_of_ok (exec_context _), worlds.context.cache_eq,
        worlds.context.resolve?_foreign elsewhere]
      exact .throw worlds _

/-- The member that is found is called with the same; it must be safe to follow where it was found. -/
theorem endsAlike_invokeMemberBy (targets : target.Resembles swap targetTwin) (name : String)
    (harmless : ∀ function middle, exec (host.indexBy invoke target (.string name)) world = (.ok function, middle) →
      middle.context.Harmless swap function) :
    EndsAlike swap (ResembleAll swap) world (exec (host.invokeMemberBy invoke target name arguments) world)
      (exec (host.invokeMemberBy invoke targetTwin name twins) twin) := by
  refine (endsAlike_indexBy invokes worlds wired targets (.same (.string name))).bind
    fun function other middle otherMiddle run worlds _ functions => ?_
  have wired := ((respects_wiring host).indexBy invokes.keeps target (.string name)).holds_of_ok wired run
  -- the member is called where looking it up has led, so it has to be harmless there
  have safe := harmless function middle run
  dsimp only
  rw [functions.isNil_eq]
  cases function.isNil with
  | true =>
      simp only [if_true, exec_bind_of_ok (exec_context _), targetName_eq worlds.context targets]
      exact .throw worlds _
  | false =>
      simp only [Bool.false_eq_true, if_false]
      cases targets with
      | same =>
          cases target with
          | proxy proxy => exact endsAlike_callBy invokes worlds wired (.cons (.same _) resemble) functions safe
          | _ => exact endsAlike_callBy invokes worlds wired resemble functions safe
      | foreign given => exact endsAlike_callBy invokes worlds wired (.cons (.foreign given) resemble) functions safe

omit resemble

/-- An operator does the same; equality, which compares keys, is left out. -/
theorem endsAlike_operateBy {operator : Operator} (notEquality : operator ≠ .eq) (lefts : key.Resembles swap keyTwin)
    (rights : item.Resembles swap itemTwin) :
    EndsAlike swap (ScriptValue.Resembles swap) world (exec (host.operateBy invoke operator key item) world)
      (exec (host.operateBy invoke operator keyTwin itemTwin) twin) := by
  simp only [operateBy, exec_bind_of_ok (exec_context _), operatorOf?_eq worlds.context lefts,
    operatorOf?_eq worlds.context rights, if_neg notEquality]
  split
  next handle found =>
    have generated : world.context.Generated handle := by
      rcases Option.or_eq_some_iff.mp found with first | ⟨-, second⟩
      · exact generated_of_operatorOf? wired first
      · exact generated_of_operatorOf? wired second
    have passed : ResembleAll swap (if operator.isUnary then [key] else [key, item])
        (if operator.isUnary then [keyTwin] else [keyTwin, itemTwin]) := by
      split
      · exact .cons lefts .nil
      · exact .cons lefts (.cons rights .nil)
    exact endsAlike_firstResult invokes worlds wired passed (.inl generated)
  next =>
    have culprits : ScriptValue.Resembles swap (if key.asProxy?.isSome then key else item)
        (if keyTwin.asProxy?.isSome then keyTwin else itemTwin) := by
      rw [lefts.isProxy_eq]
      split
      · exact lefts
      · exact rights
    rw [operandName_eq culprits]
    exact .throw worlds _

end Calls

end Host

end ScriptBridge
