import ScriptBridge.Context.Members
import ScriptBridge.Proofs.Modes.Binding
import ScriptBridge.Proofs.Steps.Members

/-!
# Members in both modes

The callable of a member does the same in two agreeing worlds. It is given the
same values up to the marks of proxies and no functions, so that only plain host
values reach the native code and the store.
-/

namespace ScriptBridge

namespace Comparison

open Bridge

variable {c : Comparison} {before : World × World} {ε : Type}

/-- The same plain host value. -/
def SamePlain (_ _ : World) (value other : HostValue) : Prop := other = value ∧ value.Plain

/-- The same plain host values. -/
def SamePlainAll (_ _ : World) (values others : List HostValue) : Prop :=
  others = values ∧ ∀ value ∈ values, value.Plain

theorem simulates_toHost (agree : c.Agree before.1 before.2) {value : ScriptValue}
    (noFunction : value.asFunction? = none) (type : TypeRef) :
    c.Simulates none before (c.host.toHost value type)
      (c.host.toHost (value.retag c.rename) type) SamePlain := by
  right
  rw [Host.exec_toHost, Host.exec_toHost, agree.alike.toHost]
  refine ⟨agree, .refl _ _, ?_⟩
  dsimp only
  cases converted : before.1.context.toHost c.host.system value type with
  | error error => exact .error error
  | ok host => exact .ok ⟨rfl, Context.plain_of_toHost (fun _ _ => agree.plain_of_resolve?) noFunction converted⟩

theorem simulates_fits (agree : c.Agree before.1 before.2) (value : ScriptValue) (type : TypeRef) :
    c.Simulates none before (c.host.fits value type : Bridge ε Bool)
      (c.host.fits (value.retag c.rename) type) Equal :=
  Or.inr ⟨agree, .refl _ _, .ok (agree.alike.fits value type)⟩

theorem simulates_asScriptPush (agree : c.Agree before.1 before.2) {value : HostValue} (plain : value.Plain) :
    c.Simulates none before (Bridge.asScript (c.host.push value)) (Bridge.asScript (c.host.push value))
      c.SameData :=
  (simulates_push plain agree).adapt _

/-- Plain values are handed to scripts. -/
theorem simulates_pushAll (agree : c.Agree before.1 before.2) {values : List HostValue}
    (plain : ∀ value ∈ values, value.Plain) :
    c.Simulates none before (values.mapM fun value => Bridge.asScript (c.host.push value))
      (values.mapM fun value => Bridge.asScript (c.host.push value)) c.SameDataAll := by
  have pairs : List.Forall₂ (fun value other => other = value ∧ value.Plain) values values :=
    List.forall₂_same.mpr fun value member => ⟨rfl, plain value member⟩
  have pushed := @Simulates.mapM _ _ _ c none before c.SameData _ _
    (fun value => Bridge.asScript (c.host.push value)) (fun value => Bridge.asScript (c.host.push value))
    _ _ _ pairs agree ?_ fun _ _ _ _ _ => id
  · apply pushed.mono
    intro left right values others _ same
    induction same with
    | nil => exact ⟨List.forall_mem_nil _, rfl⟩
    | cons first _ ih =>
        rcases first with ⟨noFunction, rfl⟩
        rcases ih with ⟨noFunctions, rfl⟩
        exact ⟨List.forall_mem_cons.mpr ⟨noFunction, noFunctions⟩, rfl⟩
  · rintro _ value after ⟨rfl, valuePlain⟩ agree
    exact simulates_asScriptPush agree valuePlain

theorem simulates_resolveOverload (agree : c.Agree before.1 before.2) (group : OverloadGroup)
    (arguments : List ScriptValue) :
    c.Simulates none before (c.host.resolveOverload group arguments)
      (c.host.resolveOverload group (retagAll c.rename arguments)) Equal := by
  apply Simulates.context
  rw [agree.alike.choose?]
  apply (simulates_count agree _ _).bind
  intro _ _ after agree _ _
  split
  · exact .pure agree rfl
  · exact .throw agree _

theorem simulates_toHostAll (agree : c.Agree before.1 before.2) {inputs : List ScriptValue}
    (noFunctions : NoFunctions inputs) (type : TypeRef) :
    c.Simulates none before (inputs.mapM fun input => c.host.toHost input type)
      ((retagAll c.rename inputs).mapM fun input => c.host.toHost input type) SamePlainAll := by
  have pairs : List.Forall₂ (fun input other => other = input.retag c.rename ∧ input.asFunction? = none) inputs
      (retagAll c.rename inputs) :=
    List.forall₂_map_right_iff.mpr (List.forall₂_same.mpr fun input member => ⟨rfl, noFunctions input member⟩)
  have converted := @Simulates.mapM _ _ _ c none before SamePlain _ _ (fun input => c.host.toHost input type)
    (fun input => c.host.toHost input type) _ _ _ pairs agree ?_ fun _ _ _ _ _ => id
  · apply converted.mono
    intro left right values others _ same
    induction same with
    | nil => exact ⟨rfl, List.forall_mem_nil _⟩
    | cons first _ ih =>
        rcases first with ⟨rfl, plain⟩
        rcases ih with ⟨rfl, allPlain⟩
        exact ⟨rfl, List.forall_mem_cons.mpr ⟨plain, allPlain⟩⟩
  · rintro input _ after ⟨rfl, noFunction⟩ agree
    exact simulates_toHost agree noFunction type

theorem simulates_gatherArray (agree : c.Agree before.1 before.2) (type element : TypeRef)
    {inputs : List ScriptValue} (noFunctions : NoFunctions inputs) :
    c.Simulates none before (c.host.gatherArray type element inputs)
      (c.host.gatherArray type element (retagAll c.rename inputs)) SamePlain := by
  apply (simulates_toHostAll agree noFunctions element).bind
  intro _ elements after agree _ same
  rcases same with ⟨rfl, plain⟩
  apply Simulates.store agree
  have allocated := agree.plainStore.allocate (⟨nofun, plain⟩ : Instance.Plain ⟨type, .empty, elements⟩)
  apply (simulates_setStore agree allocated).bind
  intro _ _ after agree _ _
  exact .pure agree ⟨rfl, .simple _ rfl rfl⟩

/-- The inputs are gathered if the type of the parameter is an array type. -/
theorem simulates_gatherElements (agree : c.Agree before.1 before.2) (type : TypeRef)
    {inputs : List ScriptValue} (noFunctions : NoFunctions inputs) :
    c.Simulates none before
      (match type.element? with
        | none => throw (.typeMismatch (c.host.fullName type ++ " is not an array type"))
        | some element => c.host.gatherArray type element inputs)
      (match type.element? with
        | none => throw (.typeMismatch (c.host.fullName type ++ " is not an array type"))
        | some element => c.host.gatherArray type element (retagAll c.rename inputs)) SamePlain := by
  split
  · exact .throw agree _
  · exact simulates_gatherArray agree type _ noFunctions

theorem simulates_collectVariadic (agree : c.Agree before.1 before.2) (type : TypeRef)
    {inputs : List ScriptValue} (noFunctions : NoFunctions inputs) :
    c.Simulates none before (c.host.collectVariadic type inputs)
      (c.host.collectVariadic type (retagAll c.rename inputs)) SamePlain := by
  have gather := simulates_gatherElements agree type noFunctions
  apply Simulates.context
  rcases inputs with _ | ⟨single, _ | ⟨second, rest⟩⟩
  · exact gather
  · simp only [retagAll, List.map_cons, List.map_nil] at gather ⊢
    rw [agree.alike.fits]
    cases before.1.context.fits c.host.system single type with
    | true => exact simulates_toHost agree (noFunctions single List.mem_cons_self) type
    | false => exact gather
  · exact gather

theorem simulates_hostArguments (agree : c.Agree before.1 before.2) (specialization : Specialization)
    (parameters : List Parameter) {inputs : List ScriptValue} (noFunctions : NoFunctions inputs) :
    c.Simulates none before (c.host.hostArguments specialization parameters inputs)
      (c.host.hostArguments specialization parameters (retagAll c.rename inputs)) SamePlainAll := by
  induction parameters generalizing inputs before with
  | nil => exact .pure agree ⟨rfl, List.forall_mem_nil _⟩
  | cons parameter rest ih =>
      -- The value of the first parameter, if it is plain, goes before the values of the others.
      have withFirst {after : World × World} (agree : c.Agree after.1 after.2) {value : HostValue}
          (plain : value.Plain) {left : List ScriptValue} (leftNoFunctions : NoFunctions left) :
          c.Simulates none after
            (do return value :: (← c.host.hostArguments specialization rest left))
            (do return value :: (← c.host.hostArguments specialization rest (retagAll c.rename left)))
            SamePlainAll := by
        apply (ih agree leftNoFunctions).bind
        intro _ values last agree _ same
        rcases same with ⟨rfl, allPlain⟩
        exact .pure agree ⟨rfl, List.forall_mem_cons.mpr ⟨plain, allPlain⟩⟩
      rw [Host.hostArguments, Host.hostArguments]
      split
      next => exact .throw agree _
      next type _ =>
        split
        · exact withFirst agree (c.plainTypes.defaultValue type) noFunctions
        · split
          · apply (simulates_collectVariadic agree type noFunctions).bind
            intro _ value after agree _ same
            rcases same with ⟨rfl, plain⟩
            exact @withFirst after agree _ plain [] (List.forall_mem_nil _)
          · rw [headD_retagAll, ← List.map_tail]
            apply (simulates_toHost agree noFunctions.headD type).bind
            intro _ value after agree _ same
            rcases same with ⟨rfl, plain⟩
            exact withFirst agree plain noFunctions.tail

/-- Native code does the same over the same store. -/
theorem simulates_runNative (agree : c.Agree before.1 before.2) (method : MethodDef) {invocation : Invocation}
    (plain : invocation.Plain) :
    c.Simulates none before (c.host.runNative method invocation) (c.host.runNative method invocation)
      fun _ _ completion other => other = completion ∧ completion.Plain := by
  right
  rw [Host.exec_runNative, Host.exec_runNative, agree.store]
  rcases MethodBody.keepsPlain c.plainNatives method.body plain before.1.store agree.plainStore with
    ⟨left, results⟩
  rw [NativeRun.exec] at left results
  refine ⟨agree.setStore left, .of_same _ rfl rfl rfl, ?_⟩
  dsimp only
  generalize ((method.body.run c.host.natives c.host.system invocation).run).run before.1.store = run at *
  rcases run with ⟨result, store⟩
  cases result with
  | error exception => exact .error exception
  | ok completion => exact .ok ⟨rfl, results completion rfl⟩

theorem simulates_writeBack (agree : c.Agree before.1 before.2) (key : Option ProxyKey)
    {receiver : Option HostValue} (plain : ∀ value, receiver = some value → value.Plain) :
    c.Simulates none before (Host.writeBack key receiver : Bridge ε Unit)
      (Host.writeBack key receiver) Equal := by
  simp only [Host.writeBack]
  split
  next key value =>
    split
    · exact simulates_updateProxy agree key (plain value rfl)
    · exact .pure agree rfl
  next => exact .pure agree rfl

/-- Both ways to look for an instance ask whether the proxy is live and then whether it fits. -/
theorem simulates_proxied (agree : c.Agree before.1 before.2) (proxy : Proxy) (type : TypeRef)
    (wrong : ScriptError) :
    c.Simulates none before
      (do
        match (← Bridge.context).cache.resolve? proxy with
        | none => throw (.staleProxy (c.host.fullName proxy.type))
        | some value =>
            if ← c.host.fits (.proxy proxy) type then return (value, proxy.key) else throw wrong :
        Bridge ScriptError (HostValue × ProxyKey))
      (do
        match (← Bridge.context).cache.resolve? (proxy.retag c.rename) with
        | none => throw (ScriptError.staleProxy (c.host.fullName proxy.type))
        | some value =>
            if ← c.host.fits (.proxy (proxy.retag c.rename)) type then return (value, proxy.key)
            else throw wrong)
      fun _ _ found other => other = found ∧ found.1.Plain := by
  apply Simulates.context
  rw [agree.resolve?_eq]
  split
  next => exact .throw agree _
  next value resolved =>
    apply (simulates_fits agree (.proxy proxy) type).bind
    intro _ fitting after later _ same
    rcases same with rfl
    split
    · exact .pure later ⟨rfl, agree.plain_of_resolve? resolved⟩
    · exact .throw later _

theorem simulates_methodReceiver (agree : c.Agree before.1 before.2) (group : OverloadGroup)
    (arguments : List ScriptValue) :
    c.Simulates none before (c.host.methodReceiver group arguments)
      (c.host.methodReceiver group (retagAll c.rename arguments))
      fun _ _ found other => other = found ∧ found.1.Plain := by
  simp only [Host.methodReceiver]
  rw [headD_retagAll]
  cases arguments.headD .nil with
  | proxy proxy => exact simulates_proxied agree proxy group.owner _
  | _ => exact .throw agree _

theorem simulates_freshInstance (agree : c.Agree before.1 before.2) (type : TypeRef) :
    c.Simulates none before (c.host.freshInstance type : Bridge ε HostValue) (c.host.freshInstance type)
      SamePlain := by
  have object := c.plainTypes.newInstance type
  unfold Host.freshInstance
  dsimp only
  split
  · exact .pure agree ⟨rfl, HostValue.plain_copied_iff.mpr object⟩
  · apply Simulates.store agree
    apply (simulates_setStore agree (agree.plainStore.allocate object)).bind
    intro _ _ after agree _ _
    exact .pure agree ⟨rfl, .simple _ rfl rfl⟩

theorem simulates_receiverFor (agree : c.Agree before.1 before.2) (group : OverloadGroup)
    (candidate : Candidate)
    (arguments : List ScriptValue) :
    c.Simulates none before (c.host.receiverFor group candidate arguments)
      (c.host.receiverFor group candidate (retagAll c.rename arguments))
      fun _ _ found other => other = found ∧ ∀ value, found.1 = some value → value.Plain := by
  simp only [Host.receiverFor]
  cases group.shape with
  | onInstance =>
      dsimp only
      split
      · exact .pure agree ⟨rfl, by simp⟩
      · apply (simulates_methodReceiver agree group arguments).bind
        intro _ found after agree _ same
        rcases same with ⟨rfl, plain⟩
        refine .pure agree ⟨rfl, fun value handed => ?_⟩
        exact Option.some.inj handed ▸ plain
  | construction =>
      apply (simulates_freshInstance agree group.owner).bind
      intro _ value after agree _ same
      rcases same with ⟨rfl, plain⟩
      refine .pure agree ⟨rfl, fun other handed => ?_⟩
      exact Option.some.inj handed ▸ plain
  | onType => exact .pure agree ⟨rfl, by simp⟩

theorem plain_of_returnedValues (method : MethodDef) {completion : Completion} (plain : completion.Plain) :
    ∀ value ∈ Host.returnedValues method completion, value.Plain := by
  intro value returned
  rcases List.mem_append.mp returned with result | written
  · split at result
    · exact List.mem_singleton.mp result ▸ plain.result
    · cases result
  · rcases List.mem_map.mp written with ⟨⟨parameter, argument⟩, zipped, rfl⟩
    exact plain.arguments argument (List.of_mem_zip (List.mem_filter.mp zipped).1).2

theorem simulates_pushOne (agree : c.Agree before.1 before.2) {value : HostValue} (plain : value.Plain) :
    c.Simulates none before (do return [← Bridge.asScript (c.host.push value)])
      (do return [← Bridge.asScript (c.host.push value)]) c.SameDataAll := by
  apply (simulates_asScriptPush agree plain).bind
  intro result _ after agree _ same
  rcases same with ⟨noFunction, rfl⟩
  exact .pure agree ⟨List.forall_mem_singleton.mpr noFunction, rfl⟩

theorem simulates_callGroup (agree : c.Agree before.1 before.2) (group : OverloadGroup)
    {arguments : List ScriptValue} (noFunctions : NoFunctions arguments) :
    c.Simulates none before (c.host.callGroup group arguments)
      (c.host.callGroup group (retagAll c.rename arguments)) c.SameDataAll := by
  simp only [Host.callGroup]
  apply (simulates_resolveOverload agree group arguments).bind
  intro _ candidate after agree _ same
  rcases same with rfl
  have inputs : Context.inputsFor group candidate (retagAll c.rename arguments) =
      retagAll c.rename (Context.inputsFor group candidate arguments) := by
    simp [Context.inputsFor, List.map_drop]
  rw [inputs]
  apply (simulates_hostArguments agree _ _ (noFunctions.drop _)).bind
  intro _ values after agree _ same
  rcases same with ⟨rfl, plainValues⟩
  apply (simulates_receiverFor agree group candidate arguments).bind
  intro _ found after agree _ same
  rcases found with ⟨receiver, key⟩
  rcases same with ⟨rfl, plainReceiver⟩
  have run := (simulates_runNative agree candidate.method.definition
    (⟨plainReceiver, plainValues⟩ : Invocation.Plain ⟨candidate.method.owner, receiver, values,
      candidate.specialization.arguments⟩)).adapt ScriptError.ofException
  apply run.bind
  intro _ completion after agree _ same
  rcases same with ⟨rfl, plain⟩
  apply (simulates_writeBack agree key plain.receiver).bind
  intro _ _ after agree _ _
  split
  · have made : (completion.receiver.getD .null).Plain := by
      cases left : completion.receiver with
      | none => exact HostValue.plain_null
      | some value => exact plain.receiver value left
    exact simulates_pushOne agree made
  · exact simulates_pushAll agree (plain_of_returnedValues _ plain)

theorem simulates_expectInstance (agree : c.Agree before.1 before.2) (target : ScriptValue) (type : TypeRef)
    (activity : String) :
    c.Simulates none before (c.host.expectInstance target type activity)
      (c.host.expectInstance (target.retag c.rename) type activity)
      fun _ _ found other => other = found ∧ found.1.Plain := by
  simp only [Host.expectInstance]
  cases target with
  | proxy proxy => exact simulates_proxied agree proxy type _
  | _ => exact .throw agree _

theorem plain_of_receiver {receiver : Option (HostValue × ProxyKey)}
    (plain : ∀ found, receiver = some found → found.1.Plain) :
    ∀ value, receiver.map Prod.fst = some value → value.Plain := by
  intro value handed
  rcases Option.map_eq_some_iff.mp handed with ⟨found, present, rfl⟩
  exact plain found present

/-- An accessor runs on the same receiver, which is written back to the same proxy. -/
theorem simulates_runAccessor (agree : c.Agree before.1 before.2) (owner : TypeRef) (method : MethodDef)
    {receiver : Option (HostValue × ProxyKey)} {arguments : List HostValue}
    (plainReceiver : ∀ found, receiver = some found → found.1.Plain)
    (plainArguments : ∀ value ∈ arguments, value.Plain) :
    c.Simulates none before (c.host.runAccessor owner method receiver arguments)
      (c.host.runAccessor owner method receiver arguments) SamePlain := by
  have plain : Invocation.Plain ⟨owner, receiver.map Prod.fst, arguments, []⟩ :=
    ⟨plain_of_receiver plainReceiver, plainArguments⟩
  apply (simulates_runNative agree method plain).bind
  intro _ completion after agree _ same
  rcases same with ⟨rfl, completionPlain⟩
  apply (simulates_writeBack agree _ completionPlain.receiver).bind
  intro _ _ after agree _ _
  exact .pure agree ⟨rfl, completionPlain.result⟩

theorem simulates_memberReceiver (agree : c.Agree before.1 before.2) (isStatic : Bool) (type : TypeRef)
    (activity : String) (arguments : List ScriptValue) :
    c.Simulates none before (c.host.memberReceiver isStatic type activity arguments)
      (c.host.memberReceiver isStatic type activity (retagAll c.rename arguments))
      fun _ _ receiver other => other = receiver ∧ ∀ found, receiver = some found → found.1.Plain := by
  simp only [Host.memberReceiver]
  split
  · exact .pure agree ⟨rfl, by simp⟩
  · rw [Host.argumentAt, Host.argumentAt, getD_retagAll]
    apply (simulates_expectInstance agree _ type activity).bind
    intro _ found after agree _ same
    rcases same with ⟨rfl, plain⟩
    refine .pure agree ⟨rfl, fun other given => ?_⟩
    exact Option.some.inj given ▸ plain

theorem simulates_getField (agree : c.Agree before.1 before.2) (field : Field)
    (arguments : List ScriptValue) :
    c.Simulates none before (c.host.getField field arguments)
      (c.host.getField field (retagAll c.rename arguments)) c.SameDataAll := by
  simp only [Host.getField]
  apply (simulates_memberReceiver agree _ _ _ arguments).bind
  intro _ receiver after agree _ same
  rcases same with ⟨rfl, plain⟩
  apply Simulates.store agree
  split
  next value read =>
    exact simulates_pushOne agree (agree.plainStore.readField? (plain_of_receiver plain) read)
  next => exact .throw agree _

theorem simulates_setField (agree : c.Agree before.1 before.2) (field : Field) {arguments : List ScriptValue}
    (noFunctions : NoFunctions arguments) :
    c.Simulates none before (c.host.setField field arguments)
      (c.host.setField field (retagAll c.rename arguments)) c.SameDataAll := by
  have nothing {after : World × World} (agree : c.Agree after.1 after.2) :
      c.Simulates none after (pure [] : Bridge ScriptError (List ScriptValue)) (pure []) c.SameDataAll :=
    .pure agree ⟨List.forall_mem_nil _, rfl⟩
  unfold Host.setField
  apply (simulates_memberReceiver agree _ _ _ arguments).bind
  intro _ receiver after agree _ same
  rcases same with ⟨rfl, plainReceiver⟩
  dsimp only
  rw [Host.argumentAt, Host.argumentAt, getD_retagAll]
  generalize (if field.definition.isStatic then 0 else 1) = position
  apply (simulates_fits agree _ _).bind
  intro _ fitting after agree _ same
  rcases same with rfl
  split
  · exact .throw agree _
  · apply (simulates_toHost agree (noFunctions.getD position) _).bind
    intro _ value after agree _ same
    rcases same with ⟨rfl, plainValue⟩
    apply Simulates.store agree
    split
    next written store wrote =>
      rcases agree.plainStore.writeField? (plain_of_receiver plainReceiver) plainValue wrote with
        ⟨plainWritten, plainStore⟩
      apply (simulates_setStore agree plainStore).bind
      intro _ _ after agree _ _
      apply (simulates_writeBack agree _ plainWritten).bind
      intro _ _ after agree _ _
      exact nothing agree
    next => exact nothing agree

theorem simulates_getItemFrom (agree : c.Agree before.1 before.2) (owner : TypeRef)
    {receiver : HostValue × ProxyKey} (plainReceiver : receiver.1.Plain) {key : ScriptValue}
    (noFunction : key.asFunction? = none) (properties : List PropertyDef) :
    c.Simulates none before (c.host.getItemFrom owner receiver key properties)
      (c.host.getItemFrom owner receiver (key.retag c.rename) properties) c.SameDataAll := by
  induction properties generalizing before with
  | nil => exact .pure agree ⟨List.forall_mem_singleton.mpr rfl, rfl⟩
  | cons property rest ih =>
      rw [Host.getItemFrom, Host.getItemFrom]
      split
      next type getter _ _ =>
        apply (simulates_fits agree key type).bind
        intro _ fitting after agree _ same
        rcases same with rfl
        split
        · apply (simulates_toHost agree noFunction type).bind
          intro _ index after agree _ same
          rcases same with ⟨rfl, plainIndex⟩
          have run := (simulates_runAccessor agree owner getter (fun _ given => Option.some.inj given ▸ plainReceiver)
            (List.forall_mem_singleton.mpr plainIndex)).adapt (c.host.accessorFailure "get" owner property.name)
          apply run.bind
          intro _ value after agree _ same
          rcases same with ⟨rfl, plainValue⟩
          apply (simulates_asScriptPush agree plainValue).bind
          intro result _ after agree _ same
          rcases same with ⟨resultData, rfl⟩
          exact .pure agree ⟨List.forall_mem_cons.mpr ⟨rfl, List.forall_mem_singleton.mpr resultData⟩, rfl⟩
        · exact ih agree
      next => exact ih agree

theorem simulates_getItem (agree : c.Agree before.1 before.2) (owner : TypeRef)
    (properties : List PropertyDef)
    {arguments : List ScriptValue} (noFunctions : NoFunctions arguments) :
    c.Simulates none before (c.host.getItem owner properties arguments)
      (c.host.getItem owner properties (retagAll c.rename arguments)) c.SameDataAll := by
  simp only [Host.getItem]
  split
  next => exact .pure agree ⟨List.forall_mem_singleton.mpr rfl, rfl⟩
  next first rest =>
    simp only [Host.argumentAt, getD_retagAll]
    apply (simulates_expectInstance agree _ owner _).bind
    intro _ receiver after agree _ same
    rcases same with ⟨rfl, plainReceiver⟩
    exact simulates_getItemFrom agree owner plainReceiver (noFunctions.getD 1) _

theorem simulates_setItemIn (agree : c.Agree before.1 before.2) (owner : TypeRef)
    {receiver : HostValue × ProxyKey} (plainReceiver : receiver.1.Plain) {key value : ScriptValue}
    (noFunctionKey : key.asFunction? = none) (noFunction : value.asFunction? = none)
    (properties : List PropertyDef) :
    c.Simulates none before (c.host.setItemIn owner receiver key value properties)
      (c.host.setItemIn owner receiver (key.retag c.rename) (value.retag c.rename) properties) c.SameDataAll := by
  induction properties generalizing before with
  | nil => exact .pure agree ⟨List.forall_mem_singleton.mpr rfl, rfl⟩
  | cons property rest ih =>
      rw [Host.setItemIn, Host.setItemIn]
      split
      next type setter _ _ =>
        apply (simulates_fits agree key type).bind
        intro _ fitting after agree _ same
        rcases same with rfl
        split
        · apply (simulates_fits agree value property.type).bind
          intro _ fittingValue after agree _ same
          rcases same with rfl
          rw [ScriptValue.isNil_retag]
          split
          · exact .throw agree _
          · apply (simulates_toHost agree noFunctionKey type).bind
            intro _ index after agree _ same
            rcases same with ⟨rfl, plainIndex⟩
            apply (simulates_toHost agree noFunction property.type).bind
            intro _ item after agree _ same
            rcases same with ⟨rfl, plainItem⟩
            have run := (simulates_runAccessor agree owner setter (fun _ given => Option.some.inj given ▸ plainReceiver)
              (List.forall_mem_cons.mpr ⟨plainIndex, List.forall_mem_singleton.mpr plainItem⟩)).adapt
                (c.host.accessorFailure "set" owner property.name)
            apply run.discard.bind
            intro _ _ after agree _ _
            exact .pure agree ⟨List.forall_mem_singleton.mpr rfl, rfl⟩
        · exact ih agree
      next => exact ih agree

theorem simulates_setItem (agree : c.Agree before.1 before.2) (owner : TypeRef)
    (properties : List PropertyDef)
    {arguments : List ScriptValue} (noFunctions : NoFunctions arguments) :
    c.Simulates none before (c.host.setItem owner properties arguments)
      (c.host.setItem owner properties (retagAll c.rename arguments)) c.SameDataAll := by
  simp only [Host.setItem]
  split
  next => exact .pure agree ⟨List.forall_mem_singleton.mpr rfl, rfl⟩
  next first rest =>
    simp only [Host.argumentAt, getD_retagAll]
    apply (simulates_expectInstance agree _ owner _).bind
    intro _ receiver after agree _ same
    rcases same with ⟨rfl, plainReceiver⟩
    exact simulates_setItemIn agree owner plainReceiver (noFunctions.getD 1) (noFunctions.getD 2) _

theorem handlerAccessor?_retag (event : EventDef) (sign : ScriptValue) (rename : Equiv.Perm CacheTag) :
    Host.handlerAccessor? event (sign.retag rename) = Host.handlerAccessor? event sign := by
  cases sign <;> rfl

/-- Without functions among the arguments, no event is ever changed. -/
theorem simulates_changeEvent (agree : c.Agree before.1 before.2) (owner : TypeRef) (event : EventDef)
    {arguments : List ScriptValue} (noFunctions : NoFunctions arguments) :
    c.Simulates none before (c.host.changeEvent owner event arguments)
      (c.host.changeEvent owner event (retagAll c.rename arguments)) c.SameDataAll := by
  simp only [Host.changeEvent]
  apply (simulates_memberReceiver agree _ _ _ arguments).bind
  intro _ receiver after agree _ same
  rcases same with ⟨rfl, plainReceiver⟩
  simp only [Host.argumentAt, getD_retagAll, handlerAccessor?_retag]
  generalize (if event.isStatic then 0 else 1) = position
  split
  next => exact .throw agree _
  next accessor _ =>
    have noFunction := noFunctions.getD (position + 1)
    generalize arguments.getD (position + 1) .nil = handler at *
    cases handler with
    | function handle => cases noFunction
    | _ => exact .throw agree _

theorem simulates_constructGroup (agree : c.Agree before.1 before.2) (group : OverloadGroup)
    {arguments : List ScriptValue} (noFunctions : NoFunctions arguments) :
    c.Simulates none before (c.host.constructGroup group arguments)
      (c.host.constructGroup group (retagAll c.rename arguments)) c.SameDataAll := by
  simp only [Host.constructGroup]
  rw [List.isEmpty_map]
  split
  · exact simulates_pushOne agree (c.plainTypes.defaultValue group.owner)
  · split
    · exact .throw agree _
    · exact simulates_callGroup agree group noFunctions

theorem enumNumber?_retag {left right : World} (agree : c.Agree left right) (type : TypeRef)
    (value : ScriptValue) :
    c.host.enumNumber? right.context type (value.retag c.rename) =
      c.host.enumNumber? left.context type value := by
  cases value with
  | proxy proxy => simp only [Host.enumNumber?, ScriptValue.retag, agree.resolve?_eq]
  | _ => rfl

theorem simulates_castToEnum (agree : c.Agree before.1 before.2) (type : TypeRef)
    (arguments : List ScriptValue) :
    c.Simulates none before (c.host.castToEnum type arguments)
      (c.host.castToEnum type (retagAll c.rename arguments)) c.SameDataAll := by
  simp only [Host.castToEnum]
  apply Simulates.context
  rw [Host.argumentAt, Host.argumentAt, getD_retagAll, enumNumber?_retag agree]
  split
  · exact simulates_pushOne agree (.simple _ rfl rfl)
  · exact .throw agree _

theorem simulates_wrapDelegate (agree : c.Agree before.1 before.2) (type : TypeRef)
    {arguments : List ScriptValue} (noFunctions : NoFunctions arguments) :
    c.Simulates none before (c.host.wrapDelegate type arguments)
      (c.host.wrapDelegate type (retagAll c.rename arguments)) c.SameDataAll := by
  simp only [Host.wrapDelegate]
  have noFunction := noFunctions.getD 0
  rw [Host.argumentAt, Host.argumentAt, getD_retagAll]
  generalize arguments.getD 0 .nil = wrapped at *
  cases wrapped with
  | function handle => cases noFunction
  | _ => exact .throw agree _

/-- A member does the same in both worlds. -/
theorem simulates_runMember (agree : c.Agree before.1 before.2) (callable : Callable)
    {arguments : List ScriptValue} (noFunctions : NoFunctions arguments) :
    c.Simulates none before (c.host.runMember callable arguments)
      (c.host.runMember callable (retagAll c.rename arguments)) c.SameDataAll := by
  cases callable with
  | method group => exact simulates_callGroup agree group noFunctions
  | fieldGetter field => exact simulates_getField agree field arguments
  | fieldSetter field => exact simulates_setField agree field noFunctions
  | itemGetter owner properties => exact simulates_getItem agree owner properties noFunctions
  | itemSetter owner properties => exact simulates_setItem agree owner properties noFunctions
  | event owner event => exact simulates_changeEvent agree owner event noFunctions
  | constructor group => exact simulates_constructGroup agree group noFunctions
  | delegateConstructor type => exact simulates_wrapDelegate agree type noFunctions
  | enumCast type => exact simulates_castToEnum agree type arguments
  | placeholder member => exact .throw agree _
  | embedder name body => exact .throw agree _

end Comparison

end ScriptBridge
