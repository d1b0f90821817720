import ScriptBridge.Context.Overloads
import ScriptBridge.Proofs.Steps.Exec

/-!
# Steps

The changes that operations make to a world, one at a time. What holds in the
course of every operation follows from what each step does.
-/

namespace ScriptBridge

/-- Changing the binding of a type changes nothing but the bindings. -/
theorem Context.modifyBinding_eq (context : Context) (type : TypeRef) (change : TypeBinding → TypeBinding) :
    context.modifyBinding type change =
      { context with bindings := (context.modifyBinding type change).bindings } := by
  rw [modifyBinding]
  split <;> rfl

/-- A change that binding types can make. -/
inductive Host.BindStep (host : Host) : World → World → Prop
  | count (world : World) (change : BindingCounters → BindingCounters) :
      BindStep host world
        { world with context := { world.context with counters := change world.context.counters } }
  | collect (world : World) (absent : world.context.extensions = none) :
      BindStep host world
        { world with context := { world.context with
            extensions := some (.collect host.system host.registry) } }
  /-- A value is represented under its run-time type. -/
  | represent (world : World) (value : HostValue) (type : TypeRef) (needsProxy : value.toScript? = none)
      (typed : world.store.typeOf? value = some type) :
      BindStep host world
        { world with context := { world.context with
            cache := (world.context.cache.represent value type).2 } }
  | place (world : World) (type : TypeRef) (mode : BindingMode) (table : TableId)
      (namespaces : NamespaceTree) (heap : TableHeap)
      (placed : world.context.namespaces.place host.system world.context.heap type =
        .ok (table, namespaces, heap)) :
      BindStep host world
        { world with context := { world.context with
            heap := heap
            namespaces := namespaces
            bindings := world.context.bindings.insert type (.bare host.system type mode table) } }
  | rebind (world : World) (type : TypeRef) (change : TypeBinding → TypeBinding) :
      BindStep host world { world with context := world.context.modifyBinding type change }
  | register (world : World) (callable : Callable) (room : world.context.callables.size < UInt32.size) :
      BindStep host world
        { world with context := { world.context with
            callables := world.context.callables.push callable } }
  | writeEntry (world : World) (id : TableId) (name : String) (value : ScriptValue) :
      BindStep host world
        { world with context := { world.context with
            heap := world.context.heap.set id (.string name) value } }

/-- A change that operations make outside of binding. -/
inductive Host.OutsideStep (host : Host) : World → World → Prop
  | report (world : World) (name : String) (arguments : List ScriptValue) :
      OutsideStep host world { world with reports := world.reports ++ [⟨name, arguments, world.context⟩] }
  | native (world : World) (method : MethodDef) (invocation : Invocation) :
      OutsideStep host world
        { world with store :=
            (((method.body.run host.natives host.system invocation).run).run world.store).2 }
  /-- Native code ran on what a proxy stood for, and its receiver takes the place of that. -/
  | nativeOn (world : World) (method : MethodDef) (invocation : Invocation) (key : ProxyKey)
      (entry : CacheEntry) (completion : Completion) (written : HostValue) (store : HostStore)
      (live : world.context.cache.lookup? key = some entry)
      (handed : invocation.receiver = some entry.value)
      (ran : ((method.body.run host.natives host.system invocation).run).run world.store =
        (.ok completion, store))
      (left : completion.receiver = some written) (copied : written.isCopied = true) :
      OutsideStep host world
        { world with
          store := store
          context := { world.context with cache := world.context.cache.update key written } }
  | allocate (world : World) (object : Instance HostValue) :
      OutsideStep host world { world with store := (world.store.allocate object).2 }
  | writeField (world : World) (field : Field) (target written : Option HostValue) (value : HostValue)
      (store : HostStore) (wrote : world.store.writeField? field target value = some (written, store)) :
      OutsideStep host world { world with store := store }
  /-- A field of what a proxy stood for was written, and the target as written takes its place. -/
  | writeFieldOn (world : World) (field : Field) (key : ProxyKey) (entry : CacheEntry)
      (value written : HostValue) (store : HostStore)
      (live : world.context.cache.lookup? key = some entry)
      (wrote : world.store.writeField? field (some entry.value) value = some (some written, store))
      (copied : written.isCopied = true) :
      OutsideStep host world
        { world with
          store := store
          context := { world.context with cache := world.context.cache.update key written } }
  | writeElement (world : World) (reference : ObjectRef) (position : Nat) (value : HostValue)
      (after : HostStore) (wrote : world.store.writeElement? reference position value = some after) :
      OutsideStep host world { world with store := after }
  | release (world : World) (key : ProxyKey) (value : HostValue) (cache : IdentityCache)
      (released : world.context.cache.release? key = some (value, cache)) :
      OutsideStep host world { world with context := { world.context with cache := cache } }
  | createTable (world : World) (kind : TableKind) :
      OutsideStep host world
        { world with context := { world.context with heap := (world.context.heap.create kind).2 } }
  | writeKey (world : World) (id : TableId) (key : ScriptKey) (value : ScriptValue) :
      OutsideStep host world
        { world with context := { world.context with heap := world.context.heap.set id key value } }

/-- A change that operations can make. -/
inductive Host.Step (host : Host) : World → World → Prop
  | bind {world after : World} (step : host.BindStep world after) : Step host world after
  | outside {world after : World} (step : host.OutsideStep world after) : Step host world after
  | unbind (world : World) (type : TypeRef) :
      Step host world
        { world with context := { world.context with
            bindings := world.context.bindings.erase type
            namespaces := world.context.namespaces.forget type } }

namespace Host

variable {host : Host} {world after : World}

theorem BindStep.store_eq (step : host.BindStep world after) : after.store = world.store := by
  cases step <;> rfl

theorem OutsideStep.bindings_eq (step : host.OutsideStep world after) :
    after.context.bindings = world.context.bindings := by
  cases step <;> rfl

theorem OutsideStep.namespaces_eq (step : host.OutsideStep world after) :
    after.context.namespaces = world.context.namespaces := by
  cases step <;> rfl

theorem store_eq_of_bindSteps (steps : Relation.ReflTransGen host.BindStep world after) :
    after.store = world.store := by
  induction steps with
  | refl => rfl
  | tail _ step ih => rw [step.store_eq, ih]

end Host

open Bridge

/-- Every run of the operation is a chain of changes that binding can make. -/
abbrev Host.Binds (host : Host) {ε α : Type} (action : Bridge ε α) : Prop := Stepwise host.BindStep action

/-- Every run of the operation is a chain of changes that operations can make. -/
abbrev Host.Steps (host : Host) {ε α : Type} (action : Bridge ε α) : Prop := Stepwise host.Step action

theorem Host.Binds.steps {host : Host} {ε α : Type} {action : Bridge ε α} (binds : host.Binds action) :
    host.Steps action :=
  binds.mono fun _ _ => .bind

namespace Host

variable {host : Host} {ε : Type}

theorem binds_count (change : BindingCounters → BindingCounters) :
    host.Binds (Bridge.count change : Bridge ε Unit) :=
  .modifyContext fun world => .count world change

theorem binds_writeEntry (id : TableId) (name : String) (value : ScriptValue) :
    host.Binds (Bridge.writeEntry id name value : Bridge ε Unit) :=
  .modifyContext fun world => .writeEntry world id name value

theorem binds_rebind (type : TypeRef) (change : TypeBinding → TypeBinding) :
    host.Binds (Bridge.modifyContext fun context => context.modifyBinding type change : Bridge ε Unit) :=
  .modifyContext fun world => .rebind world type change

theorem exec_register_of_full {world : World} (full : UInt32.size ≤ world.context.callables.size)
    (callable : Callable) : exec (Bridge.register callable) world = (.error .callableLimit, world) := by
  simp [Bridge.register, exec_bind, full]

theorem exec_register_of_room {world : World} (room : world.context.callables.size < UInt32.size)
    (callable : Callable) :
    exec (Bridge.register callable) world =
      (.ok ⟨world.context.callables.size.toUInt32⟩,
        { world with context := { world.context with
            callables := world.context.callables.push callable } }) := by
  have notFull : ¬UInt32.size ≤ world.context.callables.size := by omega
  simp [Bridge.register, exec_bind, exec_map, Except.map, notFull]

theorem binds_register (callable : Callable) : host.Binds (Bridge.register callable) := by
  intro world
  rcases Nat.lt_or_ge world.context.callables.size UInt32.size with room | full
  · rw [exec_register_of_room room]
    exact .single (.register world callable room)
  · rw [exec_register_of_full full]

theorem binds_extensionMap : host.Binds (host.extensionMap : Bridge ε (Option ExtensionMap)) := by
  intro world
  cases merges : world.context.config.mergesExtensions with
  | false => simp [extensionMap, exec_bind, merges, Relation.ReflTransGen.refl]
  | true =>
      cases present : world.context.extensions with
      | none =>
          simp only [extensionMap, exec_bind, exec_context, merges, present]
          exact .single (.collect world present)
      | some extensions => simp [extensionMap, exec_bind, merges, present, Relation.ReflTransGen.refl]

end Host

end ScriptBridge
