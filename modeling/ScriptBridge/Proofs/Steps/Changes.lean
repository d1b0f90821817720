import ScriptBridge.Proofs.Steps.Operations

/-!
# Changes, request by request

What operations do to a world once more, with binding a type, showing its hidden
members and resolving a member each as one change. What scripts and the embedder
write into tables is kept apart from what binding writes there, so that one can
speak of contexts whose namespaces and tables of types nobody else has written to.
-/

namespace ScriptBridge.Host

open Bridge

/-- A table that neither is a node of the namespaces nor stands for a type. -/
def PlainTable (world : World) (id : TableId) : Prop :=
  ∀ kind, world.context.heap.kind? id = some kind → kind = .plain

/-- A change that operations make, or that happens elsewhere; entries are written only where that is allowed. -/
inductive Change (host : Host) (writable : World → TableId → Prop) : World → World → Prop
  | bindWith (world : World) (type : TypeRef) (access : MemberAccess) (mode : BindingMode) :
      Change host writable world (exec (host.bindWith type access mode) world).2
  | showHidden (world : World) (type : TypeRef) :
      Change host writable world (exec (host.showHidden type) world).2
  | resolveMember (world : World) (member : PendingMember) :
      Change host writable world (exec (host.resolveMember member) world).2
  | register (world : World) (callable : Callable) :
      Change host writable world (exec (Bridge.register callable) world).2
  /-- A value is represented under its run-time type. -/
  | represent (world : World) (value : HostValue) (type : TypeRef) (needsProxy : value.toScript? = none)
      (typed : world.store.typeOf? value = some type) :
      Change host writable world
        { world with context := { world.context with
            cache := (world.context.cache.represent value type).2 } }
  | countResolution (world : World) (matched : Bool) :
      Change host writable world
        { world with context := { world.context with
            counters := world.context.counters.countResolution matched } }
  | outside {world after : World} (step : host.OutsideStep world after)
      (sameTables : after.context.heap = world.context.heap) : Change host writable world after
  | createTable (world : World) :
      Change host writable world
        { world with context := { world.context with heap := (world.context.heap.create .plain).2 } }
  /-- A namespace of registered types is entered below a namespace, under a name that nothing has. -/
  | enterSpace (world : World) (table : TableId) (path name : String)
      (space : world.context.heap.kind? table = some (.space path))
      (vacant : world.context.heap.get table (.string name) = .nil)
      (known : host.registry.hasNamespace host.system (NamespaceTree.extendPath path name) = true) :
      Change host writable world
        { world with context := { world.context with
            heap := (world.context.heap.graft table name (.space (NamespaceTree.extendPath path name)) []).2 } }
  /-- A script or the embedder writes an entry. -/
  | writeKey (world : World) (id : TableId) (key : ScriptKey) (value : ScriptValue)
      (allowed : writable world id) :
      Change host writable world
        { world with context := { world.context with heap := world.context.heap.set id key value } }
  | unbind (world : World) (type : TypeRef) :
      Change host writable world
        { world with context := { world.context with
            bindings := world.context.bindings.erase type
            namespaces := world.context.namespaces.forget type } }
  /-- Other contexts of the host and the host itself change the store. -/
  | elsewhere (world : World) (store : HostStore) (reports : List Report) :
      Change host writable world { world with store := store, reports := reports }

/-- One world is reached from another, and nobody writes into namespaces and tables of types on the way. -/
abbrev Unwritten (host : Host) : World → World → Prop := Relation.ReflTransGen (host.Change PlainTable)

/-- One world follows another in the course of operations, also of those that an embedder function asks for. -/
abbrev Follows (host : Host) : World → World → Prop := Relation.ReflTransGen (host.Change fun _ _ => True)

variable {host : Host} {writable : World → TableId → Prop}

/-- What a world reaches by changes. -/
theorem respects_reachedBy_change (start : World) : host.Respects (.reachedBy (host.Change writable) start) where
  outside step same reached := reached.tail (.outside step same)
  createTable reached := reached.tail (.createTable _)
  enterSpace space vacant known reached := reached.tail (.enterSpace _ _ _ _ space vacant known)
  represent simple typed reached := reached.tail (.represent _ _ _ simple typed)
  countResolution matched reached := reached.tail (.countResolution _ matched)
  bindWith type access mode world reached := .inl (reached.tail (.bindWith world type access mode))
  showHidden type world reached := .inl (reached.tail (.showHidden world type))
  resolveMember member world reached := .inl (reached.tail (.resolveMember world member))

theorem keptBy_register_reachedBy (callable : Callable) (start : World) :
    (Invariant.reachedBy (host.Change writable) start).KeptBy (Bridge.register callable) :=
  fun world reached => .inl (reached.tail (.register world callable))

theorem keptBy_unbind_reachedBy (type : TypeRef) (start : World) :
    (Invariant.reachedBy (host.Change writable) start).KeptBy (unbind type : Bridge BindError Bool) :=
  keptBy_unbind type fun world reached => reached.tail (.unbind world type)

/-- Every operation is a chain of changes. -/
theorem changes_perform (anywhere : ∀ world id, writable world id) (operation : Operation) :
    Stepwise (host.Change writable) (host.perform operation) :=
  Invariant.stepwise_of_keptBy fun start =>
    have respects : host.RespectsWrites (.reachedBy (host.Change writable) start) :=
      { respects_reachedBy_change start with
        writeKey := fun id key value reached => reached.tail (.writeKey _ id key value (anywhere _ id)) }
    respects.perform operation (fun callable _ => keptBy_register_reachedBy callable start)
      fun type _ => keptBy_unbind_reachedBy type start

/-- What every change keeps, if it is respected and no failure to bind excuses breaking it. -/
theorem Change.holds {invariant : Invariant} {world after : World} (respects : host.RespectsWrites invariant)
    (unexcused : ∀ cause, ¬invariant.excuses cause)
    (registers : ∀ callable, invariant.KeptBy (Bridge.register callable))
    (unbinds : ∀ {world : World} (type : TypeRef), invariant.holds world →
      invariant.holds
        { world with context := { world.context with
            bindings := world.context.bindings.erase type
            namespaces := world.context.namespaces.forget type } })
    (elsewhere : ∀ {world : World} (store : HostStore) (reports : List Report), invariant.holds world →
      invariant.holds { world with store := store, reports := reports })
    (change : host.Change writable world after) (holds : invariant.holds world) : invariant.holds after := by
  have reached {ε α : Type} [BindingFailure ε] {action : Bridge ε α} (kept : invariant.KeptBy action) :
      invariant.holds (exec action world).2 :=
    (kept world holds).holds unexcused
  cases change with
  | bindWith type access mode => exact reached (respects.bindWith type access mode)
  | showHidden type => exact reached (respects.showHidden type)
  | resolveMember member => exact reached (respects.resolveMember member)
  | register callable => exact reached (registers callable)
  | represent value type simple typed => exact respects.represent simple typed holds
  | countResolution matched => exact respects.countResolution matched holds
  | outside step sameTables => exact respects.outside step sameTables holds
  | createTable => exact respects.createTable holds
  | enterSpace table path name space vacant known => exact respects.enterSpace space vacant known holds
  | writeKey id key value allowed => exact respects.writeKey id key value holds
  | unbind type => exact unbinds type holds
  | elsewhere store reports => exact elsewhere store reports holds

/-- Binding and pushing write nothing into namespaces and tables of types but what belongs there. -/
theorem unwritten_perform {operation : Operation} (quiet : operation.isQuiet = true) (world : World) :
    host.Unwritten world (exec (host.perform operation) world).2 :=
  (Invariant.stepwise_of_keptBy fun start =>
    (respects_reachedBy_change start).perform quiet (fun callable _ => keptBy_register_reachedBy callable start)
      fun type _ => keptBy_unbind_reachedBy type start) world

/-- Nor does running the code of a member. -/
theorem unwritten_runMember (callable : Callable) (arguments : List ScriptValue) (world : World) :
    host.Unwritten world (exec (host.runMember callable arguments) world).2 :=
  (Invariant.stepwise_of_keptBy fun start => (respects_reachedBy_change start).runMember callable arguments) world

end ScriptBridge.Host
