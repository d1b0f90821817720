import ScriptBridge.Context.Calls
import ScriptBridge.Proofs.Foreign.Binding
import ScriptBridge.Proofs.Steps.Members

/-!
# Members see no proxies of other contexts

A proxy of another context fits no type and stands for no instance. So members do the
same with arguments that resemble each other, and give the same results: nothing of what
they were passed comes back but what they made of it.
-/

namespace ScriptBridge

open Bridge

variable {swap : KeySwap} {ε : Type}

theorem IdentityCache.update_tag (cache : IdentityCache) (key : ProxyKey) (value : HostValue) :
    (cache.update key value).tag = cache.tag := by
  rw [update, update?]
  cases cache.lookup? key <;> rfl

theorem ResembleAll.argumentAt {arguments twins : List ScriptValue} (resemble : ResembleAll swap arguments twins)
    (position : Nat) : (Host.argumentAt arguments position).Resembles swap (Host.argumentAt twins position) :=
  resemble.getD position

namespace Host

variable {host : Host} {value twin : ScriptValue} {arguments twins : List ScriptValue}

section Values

variable (values : value.Resembles swap twin)

include values

theorem mirrors_fits (type : TypeRef) :
    Mirrors swap Eq (host.fits value type : Bridge ε Bool) (host.fits twin type) :=
  .context fun _ _ resembles => .pure (resembles.fits values type).symm

theorem mirrors_toHost (type : TypeRef) : Mirrors swap Eq (host.toHost value type) (host.toHost twin type) := by
  refine .context fun context other resembles => ?_
  rw [resembles.toHost values]
  cases context.toHost host.system value type with
  | error error => exact .throw error
  | ok found => exact .pure rfl

/-- An instance is found behind the same proxies; behind those of other contexts there is none. -/
theorem mirrors_expectInstance (type : TypeRef) (activity : String) :
    Mirrors swap Eq (host.expectInstance value type activity) (host.expectInstance twin type activity) := by
  cases values with
  | same =>
      cases value with
      | proxy proxy =>
          refine .context fun context other resembles => ?_
          rw [resembles.cache_eq]
          split
          · exact .throw _
          · refine .after (mirrors_fits (.same _) type) fun fits => ?_
            split
            · exact .pure rfl
            · exact .throw _
      | _ => exact .throw _
  | foreign given =>
      have elsewhere := swap.elsewhere given
      refine .context fun context other resembles => ?_
      simp only [resembles.cache_eq, resembles.resolve?_foreign elsewhere]
      exact .throw _

end Values

section Calls

variable (resemble : ResembleAll swap arguments twins)

theorem blind_writeBack (key : Option ProxyKey) (receiver : Option HostValue) :
    Blind swap (writeBack key receiver : Bridge ε Unit) := by
  simp only [writeBack]
  split
  · split
    · exact .modifyContext (fun _ _ => rfl) (fun context => context.cache.update_tag _ _) fun _ => .of_callables rfl
    · exact .pure _
  · exact .pure _

theorem blind_runNative (method : MethodDef) (invocation : Invocation) :
    Blind swap (host.runNative method invocation) :=
  .store fun _ => .bind (.setStore _) fun _ => .ofExcept _

theorem blind_freshInstance (type : TypeRef) : Blind swap (host.freshInstance type : Bridge ε HostValue) := by
  simp only [freshInstance]
  split
  · exact .pure _
  · exact .store fun store => .bind (.setStore _) fun _ => .pure _

theorem blind_runAccessor (owner : TypeRef) (method : MethodDef) (receiver : Option (HostValue × ProxyKey))
    (values : List HostValue) : Blind swap (host.runAccessor owner method receiver values) :=
  .bind (blind_runNative _ _) fun _ => .bind (blind_writeBack _ _) fun _ => .pure _

theorem blind_pushAll (values : List HostValue) :
    Blind swap (values.mapM fun value => Bridge.asScript (host.push value)) :=
  .mapM values fun value => blind_push value

include resemble

theorem mirrors_resolveOverload (group : OverloadGroup) :
    Mirrors swap Eq (host.resolveOverload group arguments) (host.resolveOverload group twins) := by
  refine .context fun context other resembles => ?_
  rw [resembles.choose? group resemble]
  refine .after (Blind.count _) fun _ => ?_
  split
  · exact .pure rfl
  · exact .throw _

theorem mirrors_gatherArray (type element : TypeRef) :
    Mirrors swap Eq (host.gatherArray type element arguments) (host.gatherArray type element twins) := by
  have elements : Mirrors swap (List.Forall₂ Eq) (arguments.mapM fun input => host.toHost input element)
      (twins.mapM fun input => host.toHost input element) :=
    .mapM resemble fun _ _ values => mirrors_toHost values element
  rw [List.forall₂_eq_eq_eq] at elements
  exact elements.after fun values => Blind.store fun store => .bind (.setStore _) fun _ => .pure _

theorem mirrors_collectVariadic (type : TypeRef) :
    Mirrors swap Eq (host.collectVariadic type arguments) (host.collectVariadic type twins) := by
  have gathers (element : TypeRef) : Mirrors swap Eq (host.gatherArray type element arguments)
      (host.gatherArray type element twins) := mirrors_gatherArray resemble type element
  refine .context fun context other resembles => ?_
  cases resemble with
  | nil =>
      dsimp only
      split
      · exact .throw _
      · exact gathers _
  | cons first rest =>
      cases rest with
      | nil =>
          simp only [resembles.fits first]
          cases context.fits host.system _ type with
          | true => exact mirrors_toHost first type
          | false =>
              simp only [Bool.false_eq_true, if_false]
              split
              · exact .throw _
              · exact gathers _
      | cons =>
          dsimp only
          split
          · exact .throw _
          · exact gathers _

theorem mirrors_hostArguments (specialization : Specialization) (parameters : List Parameter) :
    Mirrors swap Eq (host.hostArguments specialization parameters arguments)
      (host.hostArguments specialization parameters twins) := by
  induction parameters generalizing arguments twins with
  | nil => exact .pure rfl
  | cons parameter rest ih =>
      simp only [hostArguments]
      split
      · exact .throw _
      · split
        · exact (ih resemble).after fun _ => .pure rfl
        · split
          · exact (mirrors_collectVariadic resemble _).after fun _ => (ih .nil).after fun _ => .pure rfl
          · exact (mirrors_toHost resemble.headD _).after fun _ => (ih resemble.tail).after fun _ => .pure rfl

theorem mirrors_methodReceiver (group : OverloadGroup) :
    Mirrors swap Eq (host.methodReceiver group arguments) (host.methodReceiver group twins) := by
  have target := resemble.headD
  simp only [methodReceiver]
  generalize arguments.headD .nil = value at *
  generalize twins.headD .nil = twin at *
  cases target with
  | same =>
      cases value with
      | proxy proxy =>
          refine .context fun context other resembles => ?_
          rw [resembles.cache_eq]
          split
          · exact .throw _
          · refine .after (mirrors_fits (.same _) _) fun fits => ?_
            split
            · exact .pure rfl
            · exact .throw _
      | _ => exact .throw _
  | foreign given =>
      have elsewhere := swap.elsewhere given
      refine .context fun context other resembles => ?_
      simp only [resembles.cache_eq, resembles.resolve?_foreign elsewhere]
      exact .throw _

theorem mirrors_receiverFor (group : OverloadGroup) (candidate : Candidate) :
    Mirrors swap Eq (host.receiverFor group candidate arguments) (host.receiverFor group candidate twins) := by
  simp only [receiverFor]
  split
  · split
    · exact .pure rfl
    · exact (mirrors_methodReceiver resemble group).after fun _ => .pure rfl
  · exact .after (blind_freshInstance _) fun _ => .pure rfl
  · exact .pure rfl

theorem mirrors_callGroup (group : OverloadGroup) :
    Mirrors swap Eq (host.callGroup group arguments) (host.callGroup group twins) := by
  refine (mirrors_resolveOverload resemble group).after fun candidate => ?_
  have inputs : ResembleAll swap (Context.inputsFor group candidate arguments)
      (Context.inputsFor group candidate twins) :=
    List.forall₂_drop _ resemble
  refine (mirrors_hostArguments inputs _ _).after fun values => ?_
  refine (mirrors_receiverFor resemble group candidate).after fun (receiver, key) => ?_
  refine .after (Mirrors.adapt _ (blind_runNative _ _)) fun completion => ?_
  refine .after (blind_writeBack _ _) fun _ => ?_
  split
  · exact .after (blind_push _) fun _ => .pure rfl
  · exact blind_pushAll _

theorem mirrors_constructGroup (group : OverloadGroup) :
    Mirrors swap Eq (host.constructGroup group arguments) (host.constructGroup group twins) := by
  simp only [constructGroup, resemble.isEmpty_eq]
  split
  · exact .after (blind_push _) fun _ => .pure rfl
  · split
    · exact .throw _
    · exact mirrors_callGroup resemble group

theorem mirrors_memberReceiver (isStatic : Bool) (type : TypeRef) (activity : String) :
    Mirrors swap Eq (host.memberReceiver isStatic type activity arguments)
      (host.memberReceiver isStatic type activity twins) := by
  simp only [memberReceiver]
  split
  · exact .pure rfl
  · exact (mirrors_expectInstance (resemble.argumentAt 0) type activity).after fun _ => .pure rfl

theorem mirrors_getField (field : Field) :
    Mirrors swap Eq (host.getField field arguments) (host.getField field twins) := by
  refine (mirrors_memberReceiver resemble _ _ _).after fun target => .store fun store => ?_
  split
  · exact .after (blind_push _) fun _ => .pure rfl
  · exact .throw _

theorem mirrors_setField (field : Field) :
    Mirrors swap Eq (host.setField field arguments) (host.setField field twins) := by
  refine (mirrors_memberReceiver resemble _ _ _).after fun target => ?_
  have item := resemble.argumentAt (if field.definition.isStatic then 0 else 1)
  generalize argumentAt arguments (if field.definition.isStatic then 0 else 1) = value at item
  generalize argumentAt twins (if field.definition.isStatic then 0 else 1) = twin at item
  refine (mirrors_fits item _).after fun fits => ?_
  split
  · exact .throw _
  · refine (mirrors_toHost item _).after fun converted => .store fun store => ?_
    split
    · exact .after (Blind.setStore _) fun _ => .after (blind_writeBack _ _) fun _ => .pure rfl
    · exact .pure rfl

end Calls

section Items

variable {keyTwin itemTwin key item : ScriptValue} (keys : key.Resembles swap keyTwin)

include keys

theorem mirrors_getItemFrom (owner : TypeRef) (receiver : HostValue × ProxyKey) (properties : List PropertyDef) :
    Mirrors swap Eq (host.getItemFrom owner receiver key properties)
      (host.getItemFrom owner receiver keyTwin properties) := by
  induction properties with
  | nil => exact .pure rfl
  | cons property rest ih =>
      simp only [getItemFrom]
      split
      · refine (mirrors_fits keys _).after fun fits => ?_
        split
        · refine (mirrors_toHost keys _).after fun index => ?_
          refine .after (Mirrors.adapt _ (blind_runAccessor _ _ _ _)) fun value => ?_
          exact .after (blind_push _) fun _ => .pure rfl
        · exact ih
      · exact ih

theorem mirrors_setItemIn (items : item.Resembles swap itemTwin) (owner : TypeRef) (receiver : HostValue × ProxyKey)
    (properties : List PropertyDef) :
    Mirrors swap Eq (host.setItemIn owner receiver key item properties)
      (host.setItemIn owner receiver keyTwin itemTwin properties) := by
  induction properties with
  | nil => exact .pure rfl
  | cons property rest ih =>
      simp only [setItemIn, items.isNil_eq]
      split
      · refine (mirrors_fits keys _).after fun fits => ?_
        split
        · refine (mirrors_fits items _).after fun takes => ?_
          split
          · exact .throw _
          · refine (mirrors_toHost keys _).after fun index => (mirrors_toHost items _).after fun value => ?_
            exact .after (Mirrors.adapt _ (blind_runAccessor _ _ _ _)).discard fun _ => .pure rfl
        · exact ih
      · exact ih

end Items

section Callables

variable (resemble : ResembleAll swap arguments twins)

include resemble

theorem mirrors_getItem (owner : TypeRef) (properties : List PropertyDef) :
    Mirrors swap Eq (host.getItem owner properties arguments) (host.getItem owner properties twins) := by
  cases properties with
  | nil => exact .pure rfl
  | cons first rest =>
      refine (mirrors_expectInstance (resemble.argumentAt 0) _ _).after fun receiver => ?_
      exact mirrors_getItemFrom (resemble.argumentAt 1) _ _ _

theorem mirrors_setItem (owner : TypeRef) (properties : List PropertyDef) :
    Mirrors swap Eq (host.setItem owner properties arguments) (host.setItem owner properties twins) := by
  cases properties with
  | nil => exact .pure rfl
  | cons first rest =>
      refine (mirrors_expectInstance (resemble.argumentAt 0) _ _).after fun receiver => ?_
      exact mirrors_setItemIn (resemble.argumentAt 1) (resemble.argumentAt 2) _ _ _

theorem mirrors_changeEvent (owner : TypeRef) (event : EventDef) :
    Mirrors swap Eq (host.changeEvent owner event arguments) (host.changeEvent owner event twins) := by
  have sign := resemble.argumentAt (if event.isStatic then 0 else 1)
  have handler := resemble.argumentAt ((if event.isStatic then 0 else 1) + 1)
  have sameAccessor : handlerAccessor? event (argumentAt twins (if event.isStatic then 0 else 1)) =
      handlerAccessor? event (argumentAt arguments (if event.isStatic then 0 else 1)) := by
    generalize argumentAt twins _ = twin at sign ⊢
    generalize argumentAt arguments _ = value at sign ⊢
    cases sign <;> rfl
  simp only [changeEvent, sameAccessor]
  refine (mirrors_memberReceiver resemble _ _ _).after fun receiver => ?_
  split
  · exact .throw _
  · generalize argumentAt twins _ = twin at handler ⊢
    generalize argumentAt arguments _ = value at handler ⊢
    cases handler with
    | same =>
        split
        · refine (mirrors_toHost (.same _) _).after fun delegate => ?_
          exact .after (Mirrors.adapt _ (blind_runAccessor _ _ _ _)).discard fun _ => .pure rfl
        · exact .throw _
    | foreign => exact .throw _

theorem mirrors_castToEnum (type : TypeRef) :
    Mirrors swap Eq (host.castToEnum type arguments) (host.castToEnum type twins) := by
  refine .context fun context other resembles => ?_
  have sameNumber : host.enumNumber? other type (argumentAt twins 0) =
      host.enumNumber? context type (argumentAt arguments 0) := by
    have value := resemble.argumentAt 0
    generalize argumentAt twins 0 = twin at value ⊢
    generalize argumentAt arguments 0 = value at value ⊢
    cases value with
    | same =>
        cases twin with
        | proxy proxy => simp only [enumNumber?, resembles.cache_eq]
        | _ => rfl
    | foreign given => simp only [enumNumber?, resembles.cache_eq, resembles.resolve?_foreign (swap.elsewhere given)]
  rw [sameNumber]
  split
  · exact .after (blind_push _) fun _ => .pure rfl
  · exact .throw _

theorem mirrors_wrapDelegate (type : TypeRef) :
    Mirrors swap Eq (host.wrapDelegate type arguments) (host.wrapDelegate type twins) := by
  have value := resemble.argumentAt 0
  simp only [wrapDelegate]
  generalize argumentAt twins 0 = twin at value ⊢
  generalize argumentAt arguments 0 = value at value ⊢
  cases value with
  | same =>
      split
      · exact .after (blind_push _) fun _ => .pure rfl
      · exact .throw _
  | foreign => exact .throw _

/-- A member gives the same results for arguments that resemble each other. -/
theorem mirrors_runMember (callable : Callable) :
    Mirrors swap Eq (host.runMember callable arguments) (host.runMember callable twins) := by
  cases callable with
  | method group => exact mirrors_callGroup resemble group
  | fieldGetter field => exact mirrors_getField resemble field
  | fieldSetter field => exact mirrors_setField resemble field
  | itemGetter owner properties => exact mirrors_getItem resemble owner properties
  | itemSetter owner properties => exact mirrors_setItem resemble owner properties
  | event owner event => exact mirrors_changeEvent resemble owner event
  | constructor group => exact mirrors_constructGroup resemble group
  | delegateConstructor type => exact mirrors_wrapDelegate resemble type
  | enumCast type => exact mirrors_castToEnum resemble type
  | placeholder member => exact .throw _
  | embedder name body => exact .throw _

theorem mirrors_runPlaceholder (member : PendingMember) :
    Mirrors swap Eq (host.runPlaceholder member arguments) (host.runPlaceholder member twins) := by
  refine .after (blind_resolveMember member) fun handle => .context fun context other resembles => ?_
  rw [resembles.callable?_eq]
  split
  · exact .throw _
  · exact mirrors_runMember resemble _

end Callables

end Host

end ScriptBridge
