import ScriptBridge.Context.Dispatch
import ScriptBridge.Proofs.Steps.Members

/-!
# What script operations keep

Reading, writing and calling values run alike with two ways to call callables that
run alike. With one way to call them this says that they keep an invariant whenever
the calls of callables do.
-/

namespace ScriptBridge.Host

open Bridge

variable {host : Host} {invoke other : Invoker} {ε : Type} [BindingFailure ε] {invariant : Invariant}

theorem RespectsPreparation.readArray (respects : host.RespectsPreparation invariant) (value : HostValue) (type : TypeRef)
    (key : ScriptValue) : invariant.KeptBy (host.readArray value type key) := by
  unfold Host.readArray
  split
  · refine .bind .store fun store => ?_
    dsimp only
    split
    · exact .pure _
    · split
      · exact .pure _
      · split
        · exact .bind (respects.push _) fun _ => .pure _
        · exact .throw _
  · exact .pure _

theorem Respects.writeArray (respects : host.Respects invariant) (value : HostValue) (type : TypeRef)
    (key item : ScriptValue) : invariant.KeptBy (host.writeArray value type key item) := by
  unfold Host.writeArray
  split
  next reference element index _ _ _ =>
    refine .bind (keptBy_fits _ _) fun accepted => ?_
    split
    · exact .throw _
    · refine .bind (keptBy_toHost _ _) fun converted => ?_
      intro world holds
      rw [exec_bind_of_ok (exec_store world)]
      dsimp only
      split
      next after wrote =>
        rcases Option.bind_eq_some_iff.mp wrote with ⟨position, -, written⟩
        exact .inl (respects.outside (.writeElement world reference position converted after written) rfl holds)
      next => exact .inl holds
  next => exact .pure _

theorem keptBy_liveValue (proxy : Proxy) : invariant.KeptBy (host.liveValue proxy) := by
  refine .bind .context fun context => ?_
  split
  · exact .pure _
  · exact .throw _

/-- What is found behind a proxy is what a live proxy stands for. -/
theorem resolve?_of_liveValue {world after : World} {proxy : Proxy} {value : HostValue}
    (run : exec (host.liveValue proxy) world = (.ok value, after)) :
    world.context.cache.resolve? proxy = some value ∧ after = world := by
  rw [liveValue, exec_bind_of_ok (exec_context world)] at run
  cases live : world.context.cache.resolve? proxy with
  | none =>
      rw [live] at run
      cases run
  | some found =>
      rw [live] at run
      rcases Prod.mk.inj run with ⟨same, rfl⟩
      exact ⟨congrArg some (Except.ok.inj same), rfl⟩

theorem Respects.createPlain (respects : host.Respects invariant) :
    invariant.KeptBy (Bridge.createTable .plain : Bridge ε TableId) :=
  fun _ holds => .inl (respects.createTable holds)

theorem Respects.indexNamespace (respects : host.Respects invariant) {table : TableId} {path : String}
    {key : ScriptValue} {world : World} (space : world.context.heap.kind? table = some (.space path))
    (vacant : (ScriptKey.ofValue? key).elim .nil (world.context.heap.get table) = .nil)
    (holds : invariant.holds world) : invariant.Arrives (exec (host.indexNamespace table path key) world) := by
  unfold Host.indexNamespace
  split
  · exact .inl holds
  next name isName =>
    cases key with
    | string text =>
        rcases Option.some.inj isName with rfl
        dsimp only
        split
        · exact (respects.loadClass _).asScript world holds
        · split
          next known => exact .inl (respects.enterSpace space vacant known holds)
          next => exact .inl holds
    | _ => cases isName

theorem Respects.release (respects : host.Respects invariant) (value : ScriptValue) :
    invariant.KeptBy (release value : Bridge ε Bool) := by
  intro world holds
  unfold Host.release
  rw [exec_bind_of_ok (exec_context world)]
  dsimp only
  split
  next proxy =>
    split
    · split
      next value cache released =>
        exact .inl (respects.outside (.release world proxy.key value cache released) rfl holds)
      next => exact .inl holds
    · exact .inl holds
  next => exact .inl holds

section Scripts

variable (invokes : ∀ handle arguments, invariant.Alike (invoke handle arguments) (other handle arguments))

include invokes

theorem alike_firstResult (handle : CallableHandle) (arguments : List ScriptValue) :
    invariant.Alike (firstResult invoke handle arguments) (firstResult other handle arguments) :=
  .bind (invokes _ _) fun _ => .pure _

theorem alike_readItem (binding : TypeBinding) (target key : ScriptValue) :
    invariant.Alike (readItem invoke binding target key) (readItem other binding target key) := by
  simp only [readItem]
  split
  · exact .pure _
  · refine .bind (invokes _ _) fun results => ?_
    split
    · exact .pure _
    · exact .pure _

theorem alike_readAlong (respects : host.Respects invariant) (proxy : Proxy) (value : HostValue)
    (key : ScriptValue) (chain : List TypeRef) :
    invariant.Alike (host.readAlong invoke proxy value key chain) (host.readAlong other proxy value key chain) := by
  induction chain with
  | nil => exact .pure _
  | cons type rest ih =>
      refine .after .context fun context => ?_
      split
      · exact ih
      · split
        · exact .pure _
        · exact alike_firstResult invokes _ _
        · refine .after (respects.readArray _ _ _) fun element => ?_
          split
          · exact .pure _
          · refine .bind (alike_readItem invokes _ _ _) fun item => ?_
            split
            · exact .pure _
            · exact ih

theorem alike_indexInstance (respects : host.Respects invariant) (proxy : Proxy) (key : ScriptValue) :
    invariant.Alike (host.indexInstance invoke proxy key) (host.indexInstance other proxy key) :=
  .after (keptBy_liveValue _) fun _ => .after (respects.ensureBound _).asScript fun _ =>
    .after .context fun _ => alike_readAlong invokes respects _ _ _ _

theorem alike_writeItem (binding : TypeBinding) (target key item : ScriptValue) :
    invariant.Alike (writeItem invoke binding target key item) (writeItem other binding target key item) := by
  simp only [writeItem]
  split
  · exact .pure _
  · exact .bind (alike_firstResult invokes _ _) fun _ => .pure _

theorem alike_writeAlong (respects : host.Respects invariant) (proxy : Proxy) (value : HostValue)
    (key item : ScriptValue) (chain : List TypeRef) :
    invariant.Alike (host.writeAlong invoke proxy value key item chain)
      (host.writeAlong other proxy value key item chain) := by
  induction chain with
  | nil => exact .throw _
  | cons type rest ih =>
      refine .after .context fun context => ?_
      split
      · exact ih
      · split
        · exact (invokes _ _).map _
        · refine .after (respects.writeArray _ _ _ _) fun stored => ?_
          split
          · exact .pure _
          · refine .bind (alike_writeItem invokes _ _ _ _) fun taken => ?_
            split
            · exact .pure _
            · exact ih

theorem alike_assignInstance (respects : host.Respects invariant) (proxy : Proxy) (key item : ScriptValue) :
    invariant.Alike (host.assignInstance invoke proxy key item) (host.assignInstance other proxy key item) :=
  .after (keptBy_liveValue _) fun _ => .after (respects.ensureBound _).asScript fun _ =>
    .after .context fun _ => alike_writeAlong invokes respects _ _ _ _ _

theorem alike_readStaticAlong (name : String) (isFirst : Bool) (chain : List TypeRef) :
    invariant.Alike (readStaticAlong invoke name isFirst chain) (readStaticAlong other name isFirst chain) := by
  induction chain generalizing isFirst with
  | nil => exact .pure _
  | cons type rest ih =>
      refine .after .context fun context => ?_
      split
      · exact ih false
      next binding _ =>
        dsimp only
        generalize (if isFirst = true then ScriptValue.nil
          else context.heap.get binding.classTable (.string name)) = entry
        split
        · exact .pure _
        · split
          · exact .pure _
          · exact .bind (alike_firstResult invokes _ _) fun _ => .pure _
          · exact ih false

theorem alike_indexType (respects : host.Respects invariant) (type : TypeRef) (key : ScriptValue) :
    invariant.Alike (host.indexType invoke type key) (host.indexType other type key) := by
  simp only [indexType]
  split
  · exact .pure _
  · refine .after .context fun context => .bind (alike_readStaticAlong invokes _ _ _) fun found => ?_
    split
    · exact .pure _
    · split
      · exact .of_keptBy (respects.loadClass _).asScript
      · exact .pure _

theorem alike_assignType (type : TypeRef) (key item : ScriptValue) :
    invariant.Alike (host.assignType invoke type key item) (host.assignType other type key item) := by
  refine .after .context fun context => ?_
  dsimp only
  split
  · exact (invokes _ _).map _
  · exact .throw _

theorem alike_indexTable (respects : host.Respects invariant) (id : TableId) (key : ScriptValue) :
    invariant.Alike (host.indexTable invoke id key) (host.indexTable other id key) := by
  intro world holds
  rw [indexTable, indexTable, exec_bind_of_ok (exec_context world), exec_bind_of_ok (exec_context world)]
  dsimp only
  split
  · exact Invariant.Alike.pure _ world holds
  next missing =>
    split
    · exact alike_indexType invokes respects _ _ world holds
    next path space =>
      refine ⟨rfl, respects.indexNamespace space ?_ holds⟩
      simpa [ScriptValue.isNil] using missing
    · exact Invariant.Alike.pure _ world holds

theorem alike_indexBy (respects : host.Respects invariant) (target key : ScriptValue) :
    invariant.Alike (host.indexBy invoke target key) (host.indexBy other target key) := by
  simp only [indexBy]
  split
  · exact alike_indexInstance invokes respects _ _
  · exact alike_indexTable invokes respects _ _
  · exact .throw _

theorem alike_assignTable (respects : host.RespectsWrites invariant) (id : TableId) (key item : ScriptValue) :
    invariant.Alike (host.assignTable invoke id key item) (host.assignTable other id key item) := by
  unfold assignTable
  split
  · exact .throw _
  next entry _ =>
    have write : invariant.KeptBy (Bridge.modifyContext fun context =>
        { context with heap := context.heap.set id entry item } : Bridge ScriptError Unit) :=
      .modifyContext fun _ => respects.writeKey id entry item
    refine .after .context fun context => ?_
    dsimp only
    split
    · split
      · exact alike_assignType invokes _ _ _
      · exact .of_keptBy write
    · exact .of_keptBy write

theorem alike_assignBy (respects : host.RespectsWrites invariant) (target key item : ScriptValue) :
    invariant.Alike (host.assignBy invoke target key item) (host.assignBy other target key item) := by
  simp only [assignBy]
  split
  · exact alike_assignInstance invokes respects.toRespects _ _ _
  · exact alike_assignTable invokes respects _ _ _
  · exact .throw _

theorem alike_callTargets (delegate : Delegate) (arguments : List ScriptValue) :
    invariant.Alike (host.callTargets invoke delegate arguments) (host.callTargets other delegate arguments) := by
  refine .foldlM _ _ fun _ target => ?_
  split
  · exact invokes _ _
  · exact .throw _

theorem alike_constructBy (function : ScriptValue) (arguments : List ScriptValue) :
    invariant.Alike (host.constructBy invoke function arguments) (host.constructBy other function arguments) := by
  refine .after .context fun context => ?_
  split
  · exact .throw _
  · split
    · exact .throw _
    · split
      · exact invokes _ _
      · exact .throw _

theorem alike_callBy (function : ScriptValue) (arguments : List ScriptValue) :
    invariant.Alike (host.callBy invoke function arguments) (host.callBy other function arguments) := by
  simp only [callBy]
  split
  · exact invokes _ _
  · refine .after .context fun context => ?_
    split
    · exact alike_callTargets invokes _ _
    · exact .throw _
    · exact .throw _
  · refine .after .context fun context => ?_
    split
    · exact alike_constructBy invokes _ _
    · exact .throw _
  · exact .throw _

theorem alike_invokeMemberBy (respects : host.Respects invariant) (target : ScriptValue) (name : String)
    (arguments : List ScriptValue) :
    invariant.Alike (host.invokeMemberBy invoke target name arguments)
      (host.invokeMemberBy other target name arguments) := by
  refine .bind (alike_indexBy invokes respects _ _) fun function => ?_
  dsimp only
  split
  · exact .after .context fun _ => .throw _
  · split
    · exact alike_callBy invokes _ _
    · exact alike_callBy invokes _ _

theorem alike_operateBy (operator : Operator) (left right : ScriptValue) :
    invariant.Alike (host.operateBy invoke operator left right) (host.operateBy other operator left right) := by
  refine .after .context fun context => ?_
  split
  · exact alike_firstResult invokes _ _
  · split
    · exact .pure _
    · exact .throw _

theorem alike_textBy (respects : host.Respects invariant) (value : ScriptValue) :
    invariant.Alike (host.textBy invoke value) (host.textBy other value) := by
  simp only [textBy]
  split
  · refine .bind (alike_indexBy invokes respects _ _) fun method => ?_
    split
    · refine .bind (alike_firstResult invokes _ _) fun text => ?_
      split
      · exact .pure _
      · exact .pure _
    · exact .pure _
  · exact .pure _

end Scripts

section Kept

variable (invokes : ∀ handle arguments, invariant.KeptBy (invoke handle arguments))

include invokes

/-- Calls that keep an invariant run alike with themselves. -/
theorem alike_invoke (handle : CallableHandle) (arguments : List ScriptValue) :
    invariant.Alike (invoke handle arguments) (invoke handle arguments) :=
  .of_keptBy (invokes handle arguments)

theorem keptBy_readItem (binding : TypeBinding) (target key : ScriptValue) :
    invariant.KeptBy (readItem invoke binding target key) :=
  (alike_readItem (alike_invoke invokes) _ _ _).keptBy

theorem keptBy_writeItem (binding : TypeBinding) (target key item : ScriptValue) :
    invariant.KeptBy (writeItem invoke binding target key item) :=
  (alike_writeItem (alike_invoke invokes) _ _ _ _).keptBy

theorem keptBy_callTargets (delegate : Delegate) (arguments : List ScriptValue) :
    invariant.KeptBy (host.callTargets invoke delegate arguments) :=
  (alike_callTargets (alike_invoke invokes) _ _).keptBy

theorem keptBy_constructBy (function : ScriptValue) (arguments : List ScriptValue) :
    invariant.KeptBy (host.constructBy invoke function arguments) :=
  (alike_constructBy (alike_invoke invokes) _ _).keptBy

theorem keptBy_callBy (function : ScriptValue) (arguments : List ScriptValue) :
    invariant.KeptBy (host.callBy invoke function arguments) :=
  (alike_callBy (alike_invoke invokes) _ _).keptBy

theorem keptBy_operateBy (operator : Operator) (left right : ScriptValue) :
    invariant.KeptBy (host.operateBy invoke operator left right) :=
  (alike_operateBy (alike_invoke invokes) _ _ _).keptBy

end Kept

theorem Respects.indexBy (respects : host.Respects invariant)
    (invokes : ∀ handle arguments, invariant.KeptBy (invoke handle arguments)) (target key : ScriptValue) :
    invariant.KeptBy (host.indexBy invoke target key) :=
  (alike_indexBy (alike_invoke invokes) respects _ _).keptBy

theorem RespectsWrites.assignBy (respects : host.RespectsWrites invariant)
    (invokes : ∀ handle arguments, invariant.KeptBy (invoke handle arguments))
    (target key item : ScriptValue) : invariant.KeptBy (host.assignBy invoke target key item) :=
  (alike_assignBy (alike_invoke invokes) respects _ _ _).keptBy

theorem Respects.invokeMemberBy (respects : host.Respects invariant)
    (invokes : ∀ handle arguments, invariant.KeptBy (invoke handle arguments)) (target : ScriptValue)
    (name : String) (arguments : List ScriptValue) :
    invariant.KeptBy (host.invokeMemberBy invoke target name arguments) :=
  (alike_invokeMemberBy (alike_invoke invokes) respects _ _ _).keptBy

theorem Respects.textBy (respects : host.Respects invariant)
    (invokes : ∀ handle arguments, invariant.KeptBy (invoke handle arguments)) (value : ScriptValue) :
    invariant.KeptBy (host.textBy invoke value) :=
  (alike_textBy (alike_invoke invokes) respects _).keptBy

end ScriptBridge.Host
