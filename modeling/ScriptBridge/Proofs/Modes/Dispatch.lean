import ScriptBridge.Proofs.Modes.Calls

/-!
# Operations of scripts in both modes

Reading, writing and calling values in two agreeing worlds. What a read hands out
is the same value up to the mark of proxies, or a function on each side, and the
two functions stand for the same member.
-/

namespace ScriptBridge

open Bridge

/-- Members of an instance of the same sort, with related handles. -/
inductive Host.InstanceMember.Corresponds (handles : CallableHandle → CallableHandle → Prop) :
    InstanceMember → InstanceMember → Prop
  | method {handle other : CallableHandle} (related : handles handle other) :
      Corresponds handles (.method handle) (.method other)
  | getter {handle other : CallableHandle} (related : handles handle other) :
      Corresponds handles (.getter handle) (.getter other)

namespace Comparison

variable {c : Comparison} {before : World × World} {left right : World} {type : TypeRef}
  {binding other : TypeBinding}

/-- Slots of the same member, whose handles stand for each other. -/
abbrev SlotsStand (c : Comparison) (left right : World) (slot other : MemberSlot) : Prop :=
  c.StandsFor left.context right.context slot.handle other.handle

theorem BindingsAgree.slot? (bindings : c.BindingsAgree left.context.callables right.context.callables type binding other)
    (bound : right.context.binding? type = some other) (table : MemberTable) (name : String) :
    Option.Rel (c.SlotsStand left right) (binding.slot? table name) (other.slot? table name) := by
  have slots := bindings.slots.get? (table, name)
  rw [TypeBinding.slot?, TypeBinding.slot?]
  generalize binding.slots.get? (table, name) = slot at *
  generalize present : other.slots.get? (table, name) = otherSlot at *
  cases slots with
  | none => exact .none
  | some slots =>
      cases slots with
      | made same => exact .some (.made same)
      | pending found otherFound ofType inPlace promise =>
          subst ofType
          rcases Prod.mk.inj inPlace with ⟨rfl, rfl⟩
          exact .some (.placeholder found otherFound promise bound present (Or.inl rfl))

theorem BindingsAgree.instanceMember?
    (bindings : c.BindingsAgree left.context.callables right.context.callables type binding other)
    (bound : right.context.binding? type = some other) (key : ScriptValue) :
    Option.Rel (Host.InstanceMember.Corresponds (c.StandsFor left.context right.context))
      (Host.instanceMember? binding key) (Host.instanceMember? other (key.retag c.rename)) := by
  cases key with
  | string name =>
      have methods := bindings.slot? bound .methods name
      have getters := bindings.slot? bound .getters name
      simp only [Host.instanceMember?, ScriptValue.retag]
      generalize binding.slot? .methods name = method at *
      generalize other.slot? .methods name = otherMethod at *
      generalize binding.slot? .getters name = getter at *
      generalize other.slot? .getters name = otherGetter at *
      cases methods with
      | some stands => exact .some (.method stands)
      | none =>
          cases getters with
          | some stands => exact .some (.getter stands)
          | none => exact .none
  | _ => exact .none

theorem Agree.handed_get (agree : c.Agree left right) (id : TableId) (key : ScriptKey) :
    c.Handed left right (left.context.heap.get id key) (right.context.heap.get id key) :=
  (agree.heap.get id key).mono fun _ _ same => .made same

theorem simulates_firstResult (agree : c.Agree before.1 before.2) {handle other : CallableHandle}
    (stands : c.StandsFor before.1.context before.2.context handle other) {arguments : List ScriptValue}
    (noFunctions : NoFunctions arguments) :
    c.Simulates none before (Host.firstResult c.host.invoke handle arguments)
      (Host.firstResult c.host.invoke other (retagAll c.rename arguments)) c.SameData := by
  apply (simulates_invoke agree stands noFunctions).bind
  intro results _ after agree _ same
  rcases same with ⟨noFunctions, rfl⟩
  exact .pure agree ⟨noFunctions.headD, headD_retagAll _ _⟩

theorem simulates_readArray (agree : c.Agree before.1 before.2) (value : HostValue) (type : TypeRef)
    (key : ScriptValue) :
    c.Simulates none before (c.host.readArray value type key)
      (c.host.readArray value type (key.retag c.rename))
      fun left right => Option.Rel (c.SameData left right) := by
  have sameKey : key.retag c.rename = .string "Length" ↔ key = .string "Length" := key.retag_eq_iff rfl
  simp only [Host.readArray]
  split
  next reference element _ _ =>
    apply Simulates.store agree
    simp only [sameKey, ScriptValue.asInteger?_retag]
    split
    · exact .pure agree (.some ⟨rfl, rfl⟩)
    · split
      · exact .pure agree .none
      · split
        next item found =>
          rcases Option.bind_eq_some_iff.mp found with ⟨position, -, present⟩
          have plain := agree.plainStore.elements reference item (List.mem_of_getElem? present)
          apply (simulates_asScriptPush agree plain).bind
          intro value _ after agree _ same
          exact .pure agree (.some same)
        next => exact .throw agree _
  next => exact .pure agree .none

theorem simulates_writeArray (agree : c.Agree before.1 before.2) (value : HostValue) (type : TypeRef)
    (key : ScriptValue) {item : ScriptValue} (noFunction : item.asFunction? = none) :
    c.Simulates none before (c.host.writeArray value type key item)
      (c.host.writeArray value type (key.retag c.rename) (item.retag c.rename)) Equal := by
  unfold Host.writeArray
  rw [ScriptValue.asInteger?_retag]
  split
  next reference element index _ _ _ =>
    apply (simulates_fits agree item element).bind
    intro _ fitting after agree _ same
    rcases same with rfl
    split
    · exact .throw agree _
    · apply (simulates_toHost agree noFunction element).bind
      intro _ converted after agree _ same
      rcases same with ⟨rfl, plain⟩
      apply Simulates.store agree
      dsimp only
      split
      next store written =>
        rcases Option.bind_eq_some_iff.mp written with ⟨position, -, changed⟩
        have plainStore := agree.plainStore.writeElement? plain changed
        exact (simulates_setStore agree plainStore).bind fun _ _ after agree _ _ => .pure agree rfl
      next => exact .throw agree _
  next => exact .pure agree rfl

theorem simulates_liveValue (agree : c.Agree before.1 before.2) (proxy : Proxy) :
    c.Simulates none before (c.host.liveValue proxy) (c.host.liveValue (proxy.retag c.rename)) Equal := by
  simp only [Host.liveValue]
  apply Simulates.context
  rw [agree.resolve?_eq]
  split
  · exact .pure agree rfl
  · exact .throw agree _

/-- The indexers of a type are the same callables on both sides. -/
theorem simulates_readItem (agree : c.Agree before.1 before.2)
    (bindings : c.BindingsAgree before.1.context.callables before.2.context.callables type binding other)
    (proxy : Proxy) {key : ScriptValue} (noFunction : key.asFunction? = none) :
    c.Simulates none before (Host.readItem c.host.invoke binding (.proxy proxy) key)
      (Host.readItem c.host.invoke other (.proxy (proxy.retag c.rename)) (key.retag c.rename))
      fun left right => Option.Rel (c.SameData left right) := by
  have noFunctions : NoFunctions [.proxy proxy, key] :=
    List.forall_mem_cons.mpr ⟨rfl, List.forall_mem_singleton.mpr noFunction⟩
  have getters := bindings.itemGetter
  simp only [Host.readItem]
  generalize binding.itemGetter = getter at *
  generalize other.itemGetter = otherGetter at *
  cases getters with
  | none => exact .pure agree .none
  | some same =>
      apply (simulates_invoke agree (.made same) noFunctions).bind
      intro results _ after agree _ same
      rcases same with ⟨noFunctions, rfl⟩
      rcases results with _ | ⟨first, _ | ⟨second, rest⟩⟩
      · exact .pure agree .none
      · cases first with
        | boolean truth => cases truth <;> exact .pure agree .none
        | _ => exact .pure agree .none
      · cases first with
        | boolean truth =>
            cases truth with
            | false => exact .pure agree .none
            | true =>
                have member : second ∈ (.boolean true) :: second :: rest :=
                  List.mem_cons_of_mem _ List.mem_cons_self
                exact .pure agree (.some ⟨noFunctions second member, rfl⟩)
        | _ => exact .pure agree .none

theorem simulates_readAlong (agree : c.Agree before.1 before.2) (proxy : Proxy) (value : HostValue)
    {key : ScriptValue} (noFunction : key.asFunction? = none) (chain : List TypeRef) :
    c.Simulates none before (c.host.readAlong c.host.invoke proxy value key chain)
      (c.host.readAlong c.host.invoke (proxy.retag c.rename) value (key.retag c.rename) chain) c.Handed := by
  induction chain generalizing before with
  | nil => exact .pure agree .nil
  | cons type rest ih =>
      rw [Host.readAlong, Host.readAlong]
      apply Simulates.context
      apply Simulates.onBinding agree type (ih agree)
      intro binding other otherFound bindings
      have members := bindings.instanceMember? otherFound key
      generalize Host.instanceMember? binding key = member at *
      generalize Host.instanceMember? other (key.retag c.rename) = otherMember at *
      cases members with
      | some member =>
          cases member with
          | method stands => exact .pure agree (.function stands)
          | getter stands =>
              have receiver : NoFunctions [.proxy proxy] := List.forall_mem_singleton.mpr rfl
              exact (simulates_firstResult agree stands receiver).mono fun _ _ _ _ _ same => same.handed
      | none =>
          apply (simulates_readArray agree value type key).bind
          intro _ _ after agree advances same
          cases same with
          | some same => exact .pure agree same.handed
          | none =>
              have kept := bindings.keep advances.left advances.right
              apply (simulates_readItem agree kept proxy noFunction).bind
              intro _ _ after agree _ same
              cases same with
              | some same => exact .pure agree same.handed
              | none => exact ih agree

theorem simulates_indexInstance (agree : c.Agree before.1 before.2) (proxy : Proxy) {key : ScriptValue}
    (noFunction : key.asFunction? = none) :
    c.Simulates none before (c.host.indexInstance c.host.invoke proxy key)
      (c.host.indexInstance c.host.invoke (proxy.retag c.rename) (key.retag c.rename)) c.Handed := by
  simp only [Host.indexInstance]
  apply (simulates_liveValue agree proxy).bind
  intro _ value after agree _ same
  rcases same with rfl
  apply ((simulates_ensureBound proxy.type agree).adapt _).bind
  intro _ _ after agree _ _
  apply Simulates.context
  rw [Proxy.retag_type, agree.lookupChain_eq]
  exact simulates_readAlong agree proxy _ noFunction _

theorem simulates_writeItem (agree : c.Agree before.1 before.2)
    (bindings : c.BindingsAgree before.1.context.callables before.2.context.callables type binding other)
    (proxy : Proxy) {key item : ScriptValue} (noFunctionKey : key.asFunction? = none)
    (noFunction : item.asFunction? = none) :
    c.Simulates none before (Host.writeItem c.host.invoke binding (.proxy proxy) key item)
      (Host.writeItem c.host.invoke other (.proxy (proxy.retag c.rename)) (key.retag c.rename)
        (item.retag c.rename)) Equal := by
  have noFunctions : NoFunctions [.proxy proxy, key, item] :=
    List.forall_mem_cons.mpr ⟨rfl, List.forall_mem_cons.mpr
      ⟨noFunctionKey, List.forall_mem_singleton.mpr noFunction⟩⟩
  have setters := bindings.itemSetter
  simp only [Host.writeItem]
  generalize binding.itemSetter = setter at *
  generalize other.itemSetter = otherSetter at *
  cases setters with
  | none => exact .pure agree rfl
  | some same =>
      apply (simulates_firstResult agree (.made same) noFunctions).bind
      intro result _ after agree _ same
      rcases same with ⟨-, rfl⟩
      exact .pure agree (decide_eq_decide.mpr (result.retag_eq_iff rfl))

theorem simulates_writeAlong (agree : c.Agree before.1 before.2) (proxy : Proxy) (value : HostValue)
    {key item : ScriptValue} (noFunctionKey : key.asFunction? = none) (noFunction : item.asFunction? = none)
    (chain : List TypeRef) :
    c.Simulates none before (c.host.writeAlong c.host.invoke proxy value key item chain)
      (c.host.writeAlong c.host.invoke (proxy.retag c.rename) value (key.retag c.rename) (item.retag c.rename)
        chain) Equal := by
  induction chain generalizing before with
  | nil =>
      rw [Host.writeAlong, Host.writeAlong, Host.noSuchField, Host.noSuchField, ScriptValue.keyText_retag]
      exact .throw agree _
  | cons type rest ih =>
      rw [Host.writeAlong, Host.writeAlong]
      apply Simulates.context
      apply Simulates.onBinding agree type (ih agree)
      intro binding other otherFound bindings
      have slots : Option.Rel (c.SlotsStand before.1 before.2)
          (key.asString?.bind fun name => binding.slot? .setters name)
          (key.asString?.bind fun name => other.slot? .setters name) := by
        cases key.asString? with
        | none => exact .none
        | some name => exact bindings.slot? otherFound .setters name
      rw [ScriptValue.asString?_retag]
      generalize (key.asString?.bind fun name => binding.slot? .setters name) = slot at *
      generalize (key.asString?.bind fun name => other.slot? .setters name) = otherSlot at *
      cases slots with
      | some stands =>
          have noFunctions : NoFunctions [.proxy proxy, item] :=
            List.forall_mem_cons.mpr ⟨rfl, List.forall_mem_singleton.mpr noFunction⟩
          exact (simulates_invoke agree stands noFunctions).discard
      | none =>
          apply (simulates_writeArray agree value type key noFunction).bind
          intro _ written after agree advances same
          rcases same with rfl
          have kept := bindings.keep advances.left advances.right
          split
          · exact .pure agree rfl
          · apply (simulates_writeItem agree kept proxy noFunctionKey noFunction).bind
            intro _ taken after agree _ same
            rcases same with rfl
            split
            · exact .pure agree rfl
            · exact ih agree

theorem simulates_assignInstance (agree : c.Agree before.1 before.2) (proxy : Proxy) {key item : ScriptValue}
    (noFunctionKey : key.asFunction? = none) (noFunction : item.asFunction? = none) :
    c.Simulates none before (c.host.assignInstance c.host.invoke proxy key item)
      (c.host.assignInstance c.host.invoke (proxy.retag c.rename) (key.retag c.rename) (item.retag c.rename))
      Equal := by
  simp only [Host.assignInstance]
  apply (simulates_liveValue agree proxy).bind
  intro _ value after agree _ same
  rcases same with rfl
  apply ((simulates_ensureBound proxy.type agree).adapt _).bind
  intro _ _ after agree _ _
  apply Simulates.context
  rw [Proxy.retag_type, agree.lookupChain_eq]
  exact simulates_writeAlong agree proxy _ noFunctionKey noFunction _

end Comparison

end ScriptBridge
