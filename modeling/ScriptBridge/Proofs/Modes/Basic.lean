import ScriptBridge.Proofs.Modes.Simulation
import ScriptBridge.Proofs.Steps.Step

/-!
# Basic operations in agreeing worlds

The reads and writes that all operations on contexts are made of, done in two
agreeing worlds at once.
-/

namespace ScriptBridge

open Bridge

namespace Context

variable {system : TypeSystem} {type : TypeRef} {converted : HostValue}

theorem plain_of_numericHost? {value : ScriptValue}
    (converts : numericHost? system value type = some converted) :
    converted.Plain := by
  simp only [numericHost?] at converts
  split at converts
  · rcases Option.map_eq_some_iff.mp converts with ⟨_, -, rfl⟩
    exact .simple _ rfl rfl
  · split at converts
    case h_6 =>
      split at converts
      · rcases Option.ite_none_right_eq_some.mp converts with ⟨-, same⟩
        exact Option.some.inj same ▸ .simple _ rfl rfl
      · rcases Option.ite_none_right_eq_some.mp converts with ⟨-, same⟩
        exact Option.some.inj same ▸ .simple _ rfl rfl
      · cases converts
    all_goals
      rcases Option.map_eq_some_iff.mp converts with ⟨_, -, rfl⟩
      exact .simple _ rfl rfl

theorem plain_of_textHost? {text : String} (converts : textHost? system text type = some converted) :
    converted.Plain := by
  simp only [textHost?] at converts
  split at converts
  · rcases Option.map_eq_some_iff.mp converts with ⟨_, -, rfl⟩
    exact .simple _ rfl rfl
  · split at converts
    · rcases Option.map_eq_some_iff.mp converts with ⟨_, -, rfl⟩
      exact .simple _ rfl rfl
    · rcases Option.some.inj converts with rfl
      exact .simple _ rfl rfl

theorem plain_of_match {result : Option HostValue} {mismatch : ScriptError}
    (plain : ∀ found, result = some found → found.Plain)
    (converts : (match result with
      | some host => .ok host
      | none => .error mismatch) = Except.ok converted) : converted.Plain := by
  cases result with
  | none => cases converts
  | some found => exact plain converted (congrArg some (Except.ok.inj converts))

/-- A script value that is no function becomes a plain host value if those behind live proxies are plain. -/
theorem plain_of_toHost {context : Context} {value : ScriptValue}
    (live : ∀ proxy found, context.cache.resolve? proxy = some found → found.Plain)
    (noFunction : value.asFunction? = none) (converts : context.toHost system value type = .ok converted) :
    converted.Plain := by
  cases value with
  | nil => exact Except.ok.inj converts ▸ HostValue.plain_null
  | boolean truth => exact Except.ok.inj converts ▸ .simple _ rfl rfl
  | integer number => exact plain_of_match (fun _ => plain_of_numericHost?) converts
  | number number => exact plain_of_match (fun _ => plain_of_numericHost?) converts
  | string text => exact plain_of_match (fun _ => plain_of_textHost?) converts
  | function handle => cases noFunction
  | proxy proxy =>
      simp only [toHost] at converts
      split at converts
      · exact Except.ok.inj converts ▸ HostValue.plain_null
      · split at converts
        next found resolved => exact Except.ok.inj converts ▸ live proxy found resolved
        next => cases converts
  | table id =>
      refine plain_of_match (fun found same => ?_) converts
      rcases Option.map_eq_some_iff.mp same with ⟨_, -, rfl⟩
      exact .simple _ rfl rfl

end Context

/-- No value of the list is a function. -/
def NoFunctions (values : List ScriptValue) : Prop := ∀ value ∈ values, value.asFunction? = none

theorem NoFunctions.drop {values : List ScriptValue} (noFunctions : NoFunctions values) (count : Nat) :
    NoFunctions (values.drop count) :=
  fun value member => noFunctions value (List.mem_of_mem_drop member)

theorem NoFunctions.getD {values : List ScriptValue} (noFunctions : NoFunctions values) (position : Nat) :
    (values.getD position .nil).asFunction? = none := by
  rw [List.getD_eq_getElem?_getD]
  cases found : values[position]? with
  | none => rfl
  | some value => exact noFunctions value (List.mem_of_getElem? found)

theorem NoFunctions.headD {values : List ScriptValue} (noFunctions : NoFunctions values) :
    (values.headD .nil).asFunction? = none := by
  cases values with
  | nil => rfl
  | cons value rest => exact noFunctions value List.mem_cons_self

theorem NoFunctions.tail {values : List ScriptValue} (noFunctions : NoFunctions values) :
    NoFunctions values.tail :=
  fun value member => noFunctions value (List.mem_of_mem_tail member)

theorem headD_retagAll (rename : Equiv.Perm CacheTag) (values : List ScriptValue) :
    (retagAll rename values).headD .nil = (values.headD .nil).retag rename := by
  cases values <;> rfl

theorem getD_retagAll (rename : Equiv.Perm CacheTag) (values : List ScriptValue) (position : Nat) :
    (retagAll rename values).getD position .nil = (values.getD position .nil).retag rename := by
  rw [List.getD_eq_getElem?_getD, List.getD_eq_getElem?_getD, List.getElem?_map]
  cases values[position]? <;> rfl

namespace Comparison

variable {c : Comparison} {inProgress : Option TypeRef} {before after : World × World} {left right : World}
  {ε : Type}

/-- A value of the first context that is no function, and the same value up to the mark of proxies. -/
def SameData (c : Comparison) (_ _ : World) (value other : ScriptValue) : Prop :=
  value.asFunction? = none ∧ other = value.retag c.rename

/-- Values of the first context that are no functions, and the same values up to the mark of proxies. -/
def SameDataAll (c : Comparison) (_ _ : World) (values others : List ScriptValue) : Prop :=
  NoFunctions values ∧ others = retagAll c.rename values

/-- The same value up to the mark of proxies, or functions that stand for the same member. -/
def Handed (c : Comparison) (left right : World) : ScriptValue → ScriptValue → Prop :=
  ScriptValue.Corresponds c.rename (c.StandsFor left.context right.context)

theorem SameData.handed {value other : ScriptValue} (same : c.SameData left right value other) :
    c.Handed left right value other := by
  rcases same with ⟨noFunction, rfl⟩
  exact .data value noFunction

theorem Advances.of_same (inProgress : Option TypeRef)
    (sameLeft : after.1.context.callables = before.1.context.callables)
    (sameRight : after.2.context.callables = before.2.context.callables)
    (sameBindings : after.2.context.bindings = before.2.context.bindings) :
    c.Advances inProgress before after := by
  refine ⟨fun _ _ found => ?_, fun _ _ found => ?_, fun type binding _ bound => ?_⟩
  · rw [sameLeft]
    exact found
  · rw [sameRight]
    exact found
  · refine ⟨binding, ?_, fun _ _ slot present => ⟨slot, present, Or.inl rfl⟩⟩
    rw [Context.binding?, sameBindings]
    exact bound

namespace Agree

theorem alike (agree : c.Agree left right) : Context.Alike c.rename left.context right.context :=
  ⟨agree.cache, agree.heap.typeOf?_eq⟩

theorem resolve?_eq (agree : c.Agree left right) (proxy : Proxy) :
    right.context.cache.resolve? (proxy.retag c.rename) = left.context.cache.resolve? proxy := by
  rw [agree.cache, IdentityCache.resolve?_retag]

theorem binding?_cases (agree : c.Agree left right) (type : TypeRef) :
    (left.context.binding? type = none ∧ right.context.binding? type = none) ∨
      ∃ binding other, left.context.binding? type = some binding ∧
        right.context.binding? type = some other ∧
        c.BindingsAgree left.context.callables right.context.callables type binding other := by
  have bindings := agree.bindings.get? type
  rw [Context.binding?, Context.binding?]
  generalize left.context.bindings.get? type = binding at *
  generalize right.context.bindings.get? type = other at *
  cases bindings with
  | none => exact Or.inl ⟨rfl, rfl⟩
  | some agree => exact Or.inr ⟨_, _, rfl, rfl, agree⟩

theorem isBound_eq (agree : c.Agree left right) (type : TypeRef) :
    right.context.isBound type = left.context.isBound type := by
  rw [Context.isBound, Context.isBound]
  rcases agree.binding?_cases type with ⟨absent, otherAbsent⟩ | ⟨binding, other, found, otherFound, -⟩
  · rw [absent, otherAbsent]
  · rw [found, otherFound, Option.isSome_some, Option.isSome_some]

theorem lookupChain_eq (agree : c.Agree left right) (type : TypeRef) :
    right.context.lookupChain c.host.system type = left.context.lookupChain c.host.system type := by
  rw [Context.lookupChain, Context.lookupChain]
  rcases agree.binding?_cases type with ⟨absent, otherAbsent⟩ | ⟨binding, other, found, otherFound, bindings⟩
  · rw [absent, otherAbsent]
  · rw [found, otherFound, Option.map_some, Option.map_some, bindings.ancestors]

theorem plain_of_resolve? (agree : c.Agree left right) {proxy : Proxy} {value : HostValue}
    (resolved : left.context.cache.resolve? proxy = some value) : value.Plain := by
  rcases IdentityCache.resolve?_eq_some_iff.mp resolved with ⟨-, entry, live, rfl⟩
  exact agree.plainCache proxy.key entry live

theorem setHeap (agree : c.Agree left right) {heap otherHeap : TableHeap}
    (heaps : TableHeap.Related c.rename (SameCallable left.context.callables right.context.callables) heap
      otherHeap) :
    c.Agree { left with context := { left.context with heap := heap } }
      { right with context := { right.context with heap := otherHeap } } :=
  { agree with heap := heaps }

theorem setCache (agree : c.Agree left right) {cache : IdentityCache} (consistent : cache.Consistent)
    (plain : cache.AllLive fun entry => entry.value.Plain) :
    c.Agree { left with context := { left.context with cache := cache } }
      { right with context := { right.context with cache := cache.retag c.rename } } :=
  { agree with cache := rfl, consistent := consistent, plainCache := plain }

theorem setStore (agree : c.Agree left right) {store : HostStore} (plain : store.Plain) :
    c.Agree { left with store := store } { right with store := store } :=
  { agree with store := rfl, plainStore := plain }

/-- More callables disturb nothing, as long as the second context has no fewer than the first. -/
theorem setCallables (agree : c.Agree left right) {callables otherCallables : Array Callable}
    (kept : KeepsCallables left.context.callables callables)
    (otherKept : KeepsCallables right.context.callables otherCallables)
    (fewer : callables.size ≤ otherCallables.size) :
    c.Agree { left with context := { left.context with callables := callables } }
      { right with context := { right.context with callables := otherCallables } } :=
  { agree with
    heap := agree.heap.mono fun _ _ same => same.keep kept otherKept
    bindings := agree.bindings.mono fun _ _ _ bindings => bindings.keep kept otherKept
    fewer := fewer }

end Agree

/-- What depends on the binding of a type has the same case on both sides. -/
theorem Simulates.onBinding {α β : Type} (agree : c.Agree before.1 before.2) (type : TypeRef)
    {unbound : Bridge ε α} {otherUnbound : Bridge ε β} {bound : TypeBinding → Bridge ε α}
    {otherBound : TypeBinding → Bridge ε β} {related : World → World → α → β → Prop}
    (without : c.Simulates inProgress before unbound otherUnbound related)
    (within : ∀ binding other, before.2.context.binding? type = some other →
      c.BindingsAgree before.1.context.callables before.2.context.callables type binding other →
      c.Simulates inProgress before (bound binding) (otherBound other) related) :
    c.Simulates inProgress before
      (match before.1.context.binding? type with
        | none => unbound
        | some binding => bound binding)
      (match before.2.context.binding? type with
        | none => otherUnbound
        | some other => otherBound other) related := by
  rcases agree.binding?_cases type with ⟨absent, otherAbsent⟩ | ⟨binding, other, found, otherFound, bindings⟩
  · rw [absent, otherAbsent]
    exact without
  · rw [found, otherFound]
    exact within binding other otherFound bindings

/-- Changes of the contexts that leave callables and bindings alone. -/
theorem simulates_modifyContext {change otherChange : Context → Context}
    (agree : c.Agree { before.1 with context := change before.1.context }
      { before.2 with context := otherChange before.2.context })
    (sameLeft : (change before.1.context).callables = before.1.context.callables)
    (sameRight : (otherChange before.2.context).callables = before.2.context.callables)
    (sameBindings : (otherChange before.2.context).bindings = before.2.context.bindings) :
    c.Simulates inProgress before (Bridge.modifyContext change : Bridge ε Unit)
      (Bridge.modifyContext otherChange) Equal :=
  Or.inr ⟨agree, .of_same _ sameLeft sameRight sameBindings, .ok rfl⟩

/-- What is counted does not matter. -/
theorem simulates_count (agree : c.Agree before.1 before.2)
    (change otherChange : BindingCounters → BindingCounters) :
    c.Simulates inProgress before (Bridge.count change : Bridge ε Unit) (Bridge.count otherChange) Equal :=
  simulates_modifyContext { agree with } rfl rfl rfl

theorem simulates_writeEntry (agree : c.Agree before.1 before.2) (id : TableId) (name : String)
    {value other : ScriptValue}
    (corresponds : value.Corresponds c.rename
      (SameCallable before.1.context.callables before.2.context.callables) other) :
    c.Simulates inProgress before (Bridge.writeEntry id name value : Bridge ε Unit)
      (Bridge.writeEntry id name other) Equal :=
  simulates_modifyContext (agree.setHeap (agree.heap.set id (.string name) corresponds)) rfl rfl rfl

theorem simulates_createTable (agree : c.Agree before.1 before.2) (kind : TableKind) :
    c.Simulates inProgress before (Bridge.createTable kind : Bridge ε TableId) (Bridge.createTable kind)
      Equal := by
  rcases agree.heap.create kind with ⟨sameId, heaps⟩
  exact Or.inr ⟨agree.setHeap heaps, .of_same _ rfl rfl rfl, .ok sameId⟩

theorem simulates_setStore (agree : c.Agree before.1 before.2) {store : HostStore} (plain : store.Plain) :
    c.Simulates inProgress before (Bridge.setStore store : Bridge ε Unit) (Bridge.setStore store) Equal :=
  Or.inr ⟨agree.setStore plain, .of_same _ rfl rfl rfl, .ok rfl⟩

theorem simulates_represent (agree : c.Agree before.1 before.2) {value : HostValue} (plain : value.Plain)
    (type : TypeRef) :
    c.Simulates inProgress before (Bridge.represent value type : Bridge ε Proxy) (Bridge.represent value type)
      fun _ _ proxy other => other = proxy.retag c.rename := by
  have represented : before.2.context.cache.represent value type =
      ((before.1.context.cache.represent value type).1.retag c.rename,
        (before.1.context.cache.represent value type).2.retag c.rename) := by
    rw [agree.cache, IdentityCache.represent_retag]
  have later := agree.setCache (agree.consistent.after (.represent value type))
    (agree.plainCache.represent agree.consistent.nextIsVacant plain)
  refine Or.inr ⟨?_, .of_same _ rfl rfl rfl, .ok ?_⟩
  · simp only [Bridge.represent, exec_bind, exec_context, exec_modifyContext, represented]
    exact later
  · exact congrArg Prod.fst represented

theorem simulates_updateProxy (agree : c.Agree before.1 before.2) (key : ProxyKey) {value : HostValue}
    (plain : value.Plain) :
    c.Simulates inProgress before (Bridge.updateProxy key value : Bridge ε Unit)
      (Bridge.updateProxy key value) Equal := by
  refine simulates_modifyContext ?_ rfl rfl rfl
  rw [agree.cache, IdentityCache.update_retag]
  exact agree.setCache (agree.consistent.after (.update key value))
    (agree.plainCache.update fun _ _ => plain)

/-- A context that has not collected the extension methods does it now. -/
theorem exec_extensionMap {host : Host} {world : World}
    (known : ∀ extensions, world.context.extensions = some extensions →
      extensions = .collect host.system host.registry) :
    exec (host.extensionMap : Bridge ε (Option ExtensionMap)) world =
      (.ok (host.mergedExtensions world.context.config),
        { world with context := { world.context with
            extensions := (host.mergedExtensions world.context.config).or world.context.extensions } }) := by
  rcases world with ⟨store, context, reports⟩
  rcases context with ⟨config, heap, namespaces, cache, bindings, callables, extensions, counters⟩
  simp only [Host.extensionMap, Host.mergedExtensions, exec_bind, exec_context]
  cases config.mergesExtensions with
  | false => rfl
  | true =>
      cases extensions with
      | none => rfl
      | some present =>
          rcases known present rfl with rfl
          rfl

theorem eq_collect_of_merged {host : Host} {config : Config} {known : Option ExtensionMap}
    (collected : ∀ extensions, known = some extensions → extensions = .collect host.system host.registry) :
    ∀ extensions, (host.mergedExtensions config).or known = some extensions →
      extensions = .collect host.system host.registry := by
  intro extensions present
  rcases Option.or_eq_some_iff.mp present with merged | ⟨-, older⟩
  · rcases Option.ite_none_right_eq_some.mp merged with ⟨-, same⟩
    exact (Option.some.inj same).symm
  · exact collected extensions older

/-- Both contexts know the same extension methods. -/
theorem simulates_extensionMap (agree : c.Agree before.1 before.2) :
    c.Simulates inProgress before (c.host.extensionMap : Bridge ε (Option ExtensionMap)) c.host.extensionMap
      fun _ _ extensions other =>
        extensions = c.host.mergedExtensions c.config ∧ other = c.host.mergedExtensions c.config := by
  right
  rw [exec_extensionMap agree.extensions, exec_extensionMap agree.otherExtensions, agree.config,
    agree.otherConfig]
  refine ⟨?_, .of_same _ rfl rfl rfl, .ok ⟨rfl, rfl⟩⟩
  exact { agree with
    extensions := eq_collect_of_merged agree.extensions
    otherExtensions := eq_collect_of_merged agree.otherExtensions }

/-- Each context adds a callable. -/
theorem simulates_register (agree : c.Agree before.1 before.2) (callable other : Callable) :
    c.Simulates inProgress before (Bridge.register callable) (Bridge.register other)
      fun left right handle otherHandle =>
        Registered left.context.callables handle callable ∧
          Registered right.context.callables otherHandle other := by
  rcases Nat.lt_or_ge before.2.context.callables.size UInt32.size with otherRoom | full
  · have room := Nat.lt_of_le_of_lt agree.fewer otherRoom
    right
    rw [Host.exec_register_of_room room, Host.exec_register_of_room otherRoom]
    have kept := KeepsCallables.push before.1.context.callables callable
    have otherKept := KeepsCallables.push before.2.context.callables other
    refine ⟨agree.setCallables kept otherKept (by simpa using agree.fewer), ?_, ?_⟩
    · exact ⟨kept, otherKept, fun _ binding _ bound =>
        ⟨binding, bound, fun _ _ slot present => ⟨slot, present, Or.inl rfl⟩⟩⟩
    · exact .ok ⟨registered_push room callable, registered_push otherRoom other⟩
  · left
    rw [Host.exec_register_of_full full]
    exact ⟨⟨_, rfl⟩, full⟩

end Comparison

end ScriptBridge
