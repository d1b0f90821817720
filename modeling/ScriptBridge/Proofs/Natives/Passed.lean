import ScriptBridge.Proofs.Natives.Scripts

/-!
# What scripts pass

An operation that works on an instance works on one, and gives it back; whatever else is
passed to it keeps its value. Static members, constructors and operators get all that
they are passed as arguments, and so leave every proxy alone.
-/

namespace ScriptBridge

open Bridge World

/-- Whatever the callable runs, it works on no instance that the script passed. -/
structure Callable.WorksAside (callable : Callable) : Prop where
  members : ∀ member, ¬callable.Takes member 1
  fields : ∀ field, callable = .fieldSetter field → field.definition.isStatic = true

namespace Callable

variable {callable : Callable}

theorem worksAside_of_group {group : OverloadGroup} (shape : group.shape ≠ .onInstance) :
    (method group).WorksAside ∧ (constructor group).WorksAside := by
  have none (member : NativeMember) : ¬∃ candidate ∈ group.candidates,
      member = .method candidate.method ∧ group.receiverCount candidate = 1 := by
    rintro ⟨candidate, -, -, count⟩
    simp [OverloadGroup.receiverCount, shape] at count
  exact ⟨⟨none, fun _ => Callable.noConfusion⟩, none, fun _ => Callable.noConfusion⟩

theorem worksAside_of_takesNoReceiver (alone : callable.takesNoReceiver = true) : callable.WorksAside := by
  cases callable with
  | method group => exact (worksAside_of_group (of_decide_eq_true alone)).1
  | constructor group => exact (worksAside_of_group (of_decide_eq_true alone)).2
  | delegateConstructor type => exact ⟨fun _ => id, fun _ => Callable.noConfusion⟩
  | enumCast type => exact ⟨fun _ => id, fun _ => Callable.noConfusion⟩
  | _ => cases alone

/-- Setters of static members work on nothing that the script passed. -/
theorem Serves.worksAside {system : TypeSystem} {type : TypeRef} {name : String}
    (serves : callable.Serves system type (.classSetters, name)) : callable.WorksAside := by
  rcases serves with ⟨earlier, member, -, declared, place, rfl⟩
  rcases member with ⟨memberName, isStatic, kind, source⟩
  have onType : isStatic = true := by
    have table := (Prod.mk.inj place).1
    cases isStatic with
    | true => rfl
    | false => cases kind <;> cases table
  rcases onType with rfl
  cases source with
  | field field =>
      simp only [ofMember]
      split
      · refine ⟨fun _ => id, fun other same => ?_⟩
        rcases fieldSetter.inj same with rfl
        exact declared.2.2.1
      · exact ⟨fun _ => id, fun _ => Callable.noConfusion⟩
  | event event =>
      refine ⟨fun member (count : 1 = if event.isStatic then 0 else 1) => ?_, fun _ => Callable.noConfusion⟩
      rw [declared.2.2.1] at count
      cases count
  | accessor accessor => exact (worksAside_of_group CallShape.noConfusion).1
  | methods methods => exact (worksAside_of_group CallShape.noConfusion).1

end Callable

/-- The proxies that are not worked on stand for what they stood for, with the native code of the host. -/
theorem World.WorksThrough.keeps {host : Host} {start : World} {through : Callable → Prop} {target : Option ScriptValue}
    {ε α : Type} {rests accepts : α → Prop} {runs : NativeRunner → Except ε α × World}
    (works : start.WorksThrough through target rests accepts runs) {key : ProxyKey} {entry : CacheEntry}
    (other : (∀ proxy, target = some (.proxy proxy) → key ≠ proxy.key) ∨ ∀ callable, through callable → callable.WorksAside)
    (live : start.context.cache.lookup? key = some entry) :
    (runs host.runner).2.context.cache.lookup? key = some entry := by
  have elsewhere {world last : World} {back : Option ProxyKey} {receiver : Option HostValue}
      (kept : start.KeepsProxies world) (returned : world.WritesBack last back receiver)
      (different : ∀ written, back = some written → key ≠ written) : last.context.cache.lookup? key = some entry := by
    rw [returned key entry (kept key entry live), CacheEntry.writtenBack_of_ne different]
  cases works with
  | still last same _ kept =>
      rw [same]
      exact kept key entry live
  | field field proxy value converted begun last result same _ chosen onInstance prepared passed _ returned =>
      rw [same]
      have different : key ≠ proxy.key := by
        rcases other with others | aside
        · exact others proxy passed
        · rw [(aside _ chosen).fields field rfl] at onInstance
          cases onInstance
      rw [WritesField] at returned
      split at returned
      · refine elsewhere prepared returned fun written taken => ?_
        rcases Option.some.inj taken with rfl
        exact different
      · exact returned key entry (prepared key entry live)
  | native callable call begun back finish once chosen prepared goesBack throws completes =>
      have different : ∀ written, back = some written → key ≠ written := by
        rintro written rfl
        cases goesBack with
        | toProxy takes passed =>
            rcases other with others | aside
            · exact others _ passed
            · exact absurd takes ((aside _ chosen).members _)
      rw [once, Host.runner, Host.exec_runNative]
      cases ((call.member.accessor.body.run host.natives host.system call.invocation).run).run begun.store with
      | mk result store =>
          cases result with
          | error exception =>
              rcases throws exception { begun with store := store } with ⟨error, failed⟩
              rw [failed]
              exact prepared key entry live
          | ok completion => exact elsewhere prepared (completes completion store) different

/--
What an operation works on, if it works on an instance at all, through which callables, and the answers that it may
have though it worked on nothing.
-/
inductive Operation.WorksOn (host : Host) (world : World) :
    Operation → Option ScriptValue → (Callable → Prop) → (Answer → Prop) → Prop
  | read (proxy : Proxy) (key : ScriptValue) :
      WorksOn host world (.index (.proxy proxy) key) (some (.proxy proxy)) host.Reads fun _ => True
  /-- A write that works on nothing is that of an element of an array. -/
  | write (proxy : Proxy) (key value : ScriptValue) :
      WorksOn host world (.assign (.proxy proxy) key value) (some (.proxy proxy)) host.Writes fun _ =>
        ∃ value reference, world.context.cache.resolve? proxy = some value ∧ value.asObject? = some reference
  | call (handle : CallableHandle) (arguments : List ScriptValue) (generated : world.context.Generated handle) :
      WorksOn host world (.call (.function handle) arguments) arguments.head? (host.Runs world handle) fun answer =>
        ∃ callable results, host.Runs world handle callable ∧ callable.Rests results ∧ answer = .values results
  /-- A function that is found by its name, without native code, is called with the instance. -/
  | member (proxy : Proxy) (name : String) (arguments : List ScriptValue) {handle : CallableHandle} {middle : World}
      (found : ∀ runner, exec (host.indexBy (host.invokeBy runner) (.proxy proxy) (.string name)) world =
        (.ok (.function handle), middle))
      (generated : middle.context.Generated handle) :
      WorksOn host world (.invokeMember (.proxy proxy) name arguments) (some (.proxy proxy))
        (host.Runs middle handle) fun answer =>
          ∃ callable results, host.Runs middle handle callable ∧ callable.Rests results ∧ answer = .values results
  | text (proxy : Proxy) {handle : CallableHandle} {middle : World}
      (found : ∀ runner, exec (host.indexBy (host.invokeBy runner) (.proxy proxy) (.string "ToString")) world =
        (.ok (.function handle), middle))
      (generated : middle.context.Generated handle) :
      WorksOn host world (.text (.proxy proxy)) (some (.proxy proxy)) (host.Runs middle handle) fun _ =>
        ∃ callable results, host.Runs middle handle callable ∧ callable.Rests results

/-- What the script passes is not worked on: a static member is written, an instance is made, or operators are applied. -/
inductive Operation.OnlyPasses : Operation → Prop
  | assignStatic (id : TableId) (key value : ScriptValue) : OnlyPasses (.assign (.table id) key value)
  | construct (function : ScriptValue) (arguments : List ScriptValue) : OnlyPasses (.construct function arguments)
  | callType (id : TableId) (arguments : List ScriptValue) : OnlyPasses (.call (.table id) arguments)
  | operate (operator : Operator) (left right : ScriptValue) : OnlyPasses (.operate operator left right)

namespace Host

variable {host : Host} {world : World}

theorem not_reads_fieldSetter (field : Field) : ¬host.Reads (.fieldSetter field) := by
  rintro (⟨type, name, earlier, member, -, declared, place, same⟩ | ⟨type, properties, same⟩)
  · rcases member with ⟨memberName, isStatic, kind, source⟩
    cases source with
    | field other =>
        simp only [Callable.ofMember] at same
        split at same
        next setter =>
          rcases setter with rfl
          cases isStatic <;> cases (Prod.mk.inj place).1
        next => cases same
    | _ => cases same
  · cases same

/-- Reading that ends in the same way with every runner calls no native code. -/
theorem standing_of_index (wired : world.context.Wired host.system) (consistent : world.context.cache.Consistent)
    {proxy : Proxy} {key value : ScriptValue} {middle : World}
    (found : ∀ runner, exec (host.indexBy (host.invokeBy runner) (.proxy proxy) key) world = (.ok value, middle)) :
    (Invariant.standing world).holds middle := by
  have kept : world.KeepsProxies middle := by
    cases @worksThrough_index host world wired consistent proxy key with
    | still last same _ kept =>
        rcases (same host.runner).symm.trans (found host.runner) with rfl
        exact kept
    | field field _ _ _ _ _ _ _ _ chosen => exact absurd chosen (not_reads_fieldSetter field)
    | native callable call begun back finish once _ _ _ throws =>
        -- the runner that always throws ends the operation with an error
        have run := once fun _ => throw (.plain "")
        rcases throws (.plain "") begun with ⟨error, failed⟩
        rw [found, exec_throw, failed] at run
        cases run
  have run := found host.runner
  rw [invokeBy_runner] at run
  have sound := ((respects_sound host).indexBy (respects_sound host).invokes _ _).holds_of_ok ⟨wired, consistent⟩ run
  exact ⟨sound.2, kept⟩

theorem worksThrough_performBy (wired : world.context.Wired host.system)
    (consistent : world.context.cache.Consistent) {operation : Operation} {target : Option ScriptValue}
    {through : Callable → Prop} {rests : Answer → Prop}
    (worksOn : operation.WorksOn host world target through rests) :
    world.WorksThrough through target rests (fun _ => True) fun runner =>
      exec (host.performBy runner operation) world := by
  cases worksOn with
  | read proxy key =>
      exact ((worksThrough_index wired consistent proxy key).adapt _).map _ (fun _ _ => trivial) fun _ _ => trivial
  | write proxy key value =>
      exact ((worksThrough_assign wired consistent proxy key value).adapt _).map _ (fun _ => id) fun _ => id
  | call handle arguments generated =>
      refine ((worksThrough_invokeBy generated arguments (standing_refl consistent)).adapt _).map _ ?_ fun _ => id
      rintro results ⟨callable, runs, rested⟩
      exact ⟨callable, results, runs, rested, rfl⟩
  | @member proxy name arguments handle middle found generated =>
      have works := @worksThrough_invokeBy host _ _ _ generated (.proxy proxy :: arguments)
        (standing_of_index wired consistent found)
      have called : world.WorksThrough (host.Runs middle handle) (some (.proxy proxy))
          (fun results => ∃ callable, host.Runs middle handle callable ∧ callable.Rests results) (fun _ => True)
          fun runner => exec (host.invokeMemberBy (host.invokeBy runner) (.proxy proxy) name arguments) world := by
        simp only [invokeMemberBy, exec_bind_of_ok (found _)]
        exact works
      refine (called.adapt _).map _ ?_ fun _ => id
      rintro results ⟨callable, runs, rested⟩
      exact ⟨callable, results, runs, rested, rfl⟩
  | @text proxy handle middle found generated =>
      have works := @worksThrough_invokeBy host _ _ _ generated [.proxy proxy]
        (standing_of_index wired consistent found)
      have first : world.WorksThrough (host.Runs middle handle) (some (.proxy proxy))
          (fun _ => ∃ callable results, host.Runs middle handle callable ∧ callable.Rests results) (fun _ => True)
          fun runner => exec ((·.headD .nil) <$> host.invokeBy runner handle [.proxy proxy]) middle := by
        refine works.map _ ?_ fun _ => id
        rintro results ⟨callable, runs, rested⟩
        exact ⟨callable, results, runs, rested⟩
      have called : world.WorksThrough (host.Runs middle handle) (some (.proxy proxy))
          (fun _ => ∃ callable results, host.Runs middle handle callable ∧ callable.Rests results) (fun _ => True)
          fun runner => exec (host.textBy (host.invokeBy runner) (.proxy proxy)) world := by
        simp only [textBy, exec_bind_of_ok (found _), firstResult, bind_pure_comp]
        refine first.bind (fun _ => id) (fun value _ => ?_) fun value last rested _ kept => ?_
        · cases value <;> exact ⟨_, trivial, fun _ => rfl⟩
        · cases value <;> exact .pure rested kept
      exact (called.adapt _).map _ (fun _ => id) fun _ => id

theorem keepsProxies_throw {ε α : Type} (error : ε) (world : World) :
    world.KeepsProxies (exec (throw error : Bridge ε α) world).2 :=
  .refl world

theorem keepsProxies_invoke {handle : CallableHandle} (alone : WorksAlone world.context.callables handle)
    (consistent : world.context.cache.Consistent) (arguments : List ScriptValue) :
    world.KeepsProxies (exec (host.invoke handle arguments) world).2 := by
  rcases alone with ⟨callable, registered, none⟩
  have generated : callable.isGenerated = true := by
    cases callable with
    | method | constructor | delegateConstructor | enumCast => rfl
    | _ => cases none
  intro key entry live
  have works := @worksThrough_runMemberBy host world world callable arguments (standing_refl consistent)
  rw [exec_invoke_of_generated registered generated, ← runMemberBy_runner]
  refine works.keeps (.inr ?_) live
  rintro _ rfl
  exact Callable.worksAside_of_takesNoReceiver none

theorem keepsProxies_constructBy (wired : world.context.Wired host.system)
    (consistent : world.context.cache.Consistent) (function : ScriptValue) (arguments : List ScriptValue) :
    world.KeepsProxies (exec (host.constructBy host.invoke function arguments) world).2 := by
  rw [constructBy, exec_bind_of_ok (exec_context world)]
  split
  next => exact keepsProxies_throw _ world
  next type _ =>
    cases bound : world.context.binding? type with
    | none => exact keepsProxies_throw _ world
    | some binding =>
        dsimp only
        split
        next handle given =>
          exact keepsProxies_invoke ((wired.bindings type binding bound).constructor handle given) consistent _
        next => exact keepsProxies_throw _ world

theorem worksAlone_of_operatorOf? (wired : world.context.Wired host.system) {operand : ScriptValue}
    {operator : Operator} {handle : CallableHandle} (found : operatorOf? world.context operand operator = some handle) :
    WorksAlone world.context.callables handle := by
  rcases Option.bind_eq_some_iff.mp found with ⟨proxy, -, rest⟩
  rcases Option.bind_eq_some_iff.mp rest with ⟨binding, bound, listed⟩
  exact (wired.bindings _ _ bound).operators _ (FinMap.mem_entries_of_get? listed)

theorem keepsProxies_operateBy (wired : world.context.Wired host.system)
    (consistent : world.context.cache.Consistent) (operator : Operator) (left right : ScriptValue) :
    world.KeepsProxies (exec (host.operateBy host.invoke operator left right) world).2 := by
  rw [operateBy, exec_bind_of_ok (exec_context world)]
  split
  next handle found =>
    have alone : WorksAlone world.context.callables handle := by
      rcases Option.or_eq_some_iff.mp found with first | ⟨-, second⟩
      · exact worksAlone_of_operatorOf? wired first
      · exact worksAlone_of_operatorOf? wired second
    generalize (if operator.isUnary = true then [left] else [left, right]) = arguments
    have kept := @keepsProxies_invoke host world handle alone consistent arguments
    rwa [firstResult, bind_pure_comp, exec_map]
  next =>
    split
    · rw [exec_pure]
      exact .refl world
    · exact keepsProxies_throw _ world

/-- A setter of a static member is passed the value that is written. -/
theorem keepsProxies_assignType (wired : world.context.Wired host.system)
    (consistent : world.context.cache.Consistent) (type : TypeRef) (key item : ScriptValue) :
    world.KeepsProxies (exec (host.assignType host.invoke type key item) world).2 := by
  rw [assignType, exec_bind_of_ok (exec_context world)]
  dsimp only
  split
  next slot found =>
    rcases Option.bind_eq_some_iff.mp found with ⟨name, -, searched⟩
    rcases List.exists_of_findSome?_eq_some searched with ⟨owner, -, offered⟩
    rcases Option.bind_eq_some_iff.mp offered with ⟨binding, bound, present⟩
    intro proxied entry live
    have works := @worksThrough_slot host world world _ (fun _ => True) owner binding .classSetters name slot bound present
      (fun _ => id) (fun _ _ _ _ => trivial) wired [item] (standing_refl consistent)
    rw [exec_discard, ← invokeBy_runner]
    exact works.keeps (.inr fun _ serves => serves.worksAside) live
  next => exact keepsProxies_throw _ world

theorem keepsProxies_assignTable (wired : world.context.Wired host.system)
    (consistent : world.context.cache.Consistent) (id : TableId) (key item : ScriptValue) :
    world.KeepsProxies (exec (host.assignTable host.invoke id key item) world).2 := by
  simp only [assignTable]
  split
  · exact keepsProxies_throw _ world
  · rw [exec_bind_of_ok (exec_context world)]
    split
    · split
      · exact keepsProxies_assignType wired consistent _ _ _
      · exact .refl world
    · exact .refl world

/-- What is only passed to an operation stands for what it stood for. -/
theorem keepsProxies_of_onlyPasses (wired : world.context.Wired host.system)
    (consistent : world.context.cache.Consistent) {operation : Operation} (passes : operation.OnlyPasses) :
    world.KeepsProxies (exec (host.perform operation) world).2 := by
  have answered {α : Type} {action : Bridge ScriptError α} (answer : α → Answer)
      (kept : world.KeepsProxies (exec action world).2) :
      world.KeepsProxies (exec (answerScript action answer) world).2 := by
    rwa [answerScript, exec_map, exec_adapt]
  cases passes with
  | assignStatic id key value => exact answered _ (keepsProxies_assignTable wired consistent id key value)
  | construct function arguments => exact answered _ (keepsProxies_constructBy wired consistent function arguments)
  | callType id arguments =>
      refine answered _ ?_
      rw [call, callBy, exec_bind_of_ok (exec_context world)]
      split
      · exact keepsProxies_constructBy wired consistent _ _
      · exact keepsProxies_throw _ world
  | operate operator left right => exact answered _ (keepsProxies_operateBy wired consistent operator left right)

end Host

end ScriptBridge
