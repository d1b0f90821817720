import ScriptBridge.Proofs.Realms.Actions
import ScriptBridge.Proofs.Tables.Calls

/-!
# Dispatch tables in every run

Every context of every run is wired, by induction over what happens to a realm.
Hence its dispatch tables name registered callables that do the work of the right
members, or placeholders for them, and calls through them find something to call.
-/

namespace ScriptBridge

open Bridge

/-- All handles that the tables of a binding hold. -/
def TypeBinding.handles (binding : TypeBinding) : List CallableHandle :=
  binding.slots.values.map MemberSlot.handle ++ binding.operators.values ++
    (binding.itemGetter.toList ++ binding.itemSetter.toList ++ binding.constructor.toList)

/-- No entry of the dispatch tables of a context dangles or stands for the wrong member. -/
structure Context.TablesIntact (host : Host) (context : Context) : Prop where
  /-- Every handle is that of a registered callable. -/
  registered : ∀ type binding, context.binding? type = some binding →
    ∀ handle ∈ binding.handles, handle.index.toNat < context.callables.size
  /-- A callable that was made does the work of a member of the type at the place of its slot. -/
  bound : ∀ type binding table name handle, context.binding? type = some binding →
    binding.slot? table name = some (.bound handle) →
    ∃ callable, context.callable? handle = some callable ∧ callable.isPlaceholder = false ∧
      callable.Serves host.system type (table, name)
  /-- Until then there is a placeholder for the place of the slot. -/
  unbound : ∀ type binding table name handle, context.binding? type = some binding →
    binding.slot? table name = some (.unbound handle) →
    ∃ member, context.callable? handle = some (.placeholder member) ∧ member.type = type ∧
      member.table = table ∧ member.name = name
  /-- A bound type has its table in the namespace tree. -/
  placed : ∀ type binding, context.binding? type = some binding →
    context.namespaces.table? type = some binding.classTable ∧
      context.heap.kind? binding.classTable = some (.type type)
  callable : ∀ type binding table name slot arguments kind store reports,
    context.binding? type = some binding → binding.slot? table name = some slot →
    (exec (host.call (.function slot.handle) arguments) ⟨store, context, reports⟩).1 ≠
      .error (.notCallable kind)
  /-- A placeholder that is called fails to be resolved, or runs a callable that is none. -/
  forwards : ∀ handle member arguments store reports,
    context.callable? handle = some (.placeholder member) →
    let call := exec (host.call (.function handle) arguments) ⟨store, context, reports⟩
    (∃ error after, exec (host.resolveMember member) ⟨store, context, reports⟩ = (.error error, after) ∧
      call = (.error error, after)) ∨
    ∃ made callable after, exec (host.resolveMember member) ⟨store, context, reports⟩ = (.ok made, after) ∧
      after.context.callable? made = some callable ∧ callable.isPlaceholder = false ∧
      call = exec (host.runMember callable arguments) after

namespace Context

variable {host : Host} {context : Context}

theorem lt_size_of_worksUnder {callables : Array Callable} {handle : CallableHandle}
    (works : WorksUnder callables handle) : handle.index.toNat < callables.size := by
  rcases works with ⟨callable, registered, -⟩
  exact registered.lt

theorem isPlaceholder_of_isGenerated {callable : Callable} (generated : callable.isGenerated = true) :
    callable.isPlaceholder = false := by
  cases callable <;> first | rfl | cases generated

theorem Wired.lt_size (wired : context.Wired host.system) {type : TypeRef} {binding : TypeBinding}
    (bound : context.binding? type = some binding) {handle : CallableHandle}
    (present : handle ∈ binding.handles) : handle.index.toNat < context.callables.size := by
  have bindingWired := wired.bindings type binding bound
  simp only [TypeBinding.handles, List.mem_append, List.mem_map, FinMap.values, Option.mem_toList] at present
  rcases present with (⟨slot, ⟨entry, listed, rfl⟩, rfl⟩ | ⟨entry, listed, rfl⟩) | (getter | setter) | constructor
  · have slotWired := bindingWired.slots entry listed
    cases same : entry.2 with
    | bound handle =>
        rw [same] at slotWired
        rcases slotWired with ⟨callable, registered, -⟩
        exact registered.lt
    | unbound handle =>
        rw [same] at slotWired
        rcases slotWired with ⟨member, registered, -⟩
        exact registered.lt
  · exact lt_size_of_worksUnder (bindingWired.operators entry listed).worksUnder
  · exact lt_size_of_worksUnder (bindingWired.worksUnder_itemGetter getter)
  · exact lt_size_of_worksUnder (bindingWired.worksUnder_itemSetter setter)
  · exact lt_size_of_worksUnder (bindingWired.constructor handle constructor).worksUnder

theorem Wired.intact (wired : context.Wired host.system) : context.TablesIntact host where
  registered _ _ bound _ present := wired.lt_size bound present
  bound type binding table name handle bound present := by
    rcases (wired.bindings type binding bound).slots _ (FinMap.mem_entries_of_get? present) with
      ⟨callable, registered, serves⟩
    exact ⟨callable, registered, isPlaceholder_of_isGenerated serves.isGenerated, serves⟩
  unbound type binding table name handle bound present := by
    rcases (wired.bindings type binding bound).slots _ (FinMap.mem_entries_of_get? present) with
      ⟨member, registered, sameType, samePlace⟩
    exact ⟨member, registered, sameType, Prod.mk.inj samePlace⟩
  placed type binding bound :=
    ⟨wired.placed type binding bound, wired.stands _ _ (wired.placed type binding bound)⟩
  callable _ _ _ _ _ _ kind _ _ bound present := Host.exec_call_slot wired bound present kind
  forwards handle member arguments store reports waits := by
    rcases @Host.exec_call_placeholder host ⟨store, context, reports⟩ wired handle member waits arguments with
      failed | ⟨made, callable, after, resolved, registered, generated, called⟩
    · exact .inl failed
    · exact .inr ⟨made, callable, after, resolved, registered, isPlaceholder_of_isGenerated generated, called⟩

end Context

namespace Realm

variable {realm : Realm}

theorem precedes_act (realm : Realm) (action : Action) : realm.system.Precedes (realm.act action).system := by
  cases action with
  | declare definition =>
      cases declared : realm.system.declare? definition with
      | none => simpa [act, declare?, declared] using TypeSystem.Precedes.refl _
      | some result => simpa [act, declare?, declared] using TypeSystem.precedes_of_declare? declared
  | perform target operation =>
      cases found : realm.contexts[target]? with
      | none => simpa [act, perform?, found] using TypeSystem.Precedes.refl _
      | some context => simpa [act_perform found] using TypeSystem.Precedes.refl _
  | _ => exact .refl _

/-- Every context of the realm is wired. -/
def Wired (realm : Realm) : Prop :=
  ∀ (place : Nat) (context : Context),
    realm.contexts[place]? = some context → context.Wired realm.system

theorem wired_actAll (actions : List Action) : (core.actAll actions).Wired :=
  @forall_contexts_actAll (fun realm context => context.Wired realm.system)
    (fun _ config => Context.wired_fresh _ config _)
    (fun realm action _ wired => wired.change (precedes_act realm action) rfl rfl (.refl _) (fun _ _ => id) rfl)
    (fun realm context operation wired => @Host.wired_perform realm.host ⟨realm.store, context, []⟩ operation wired)
    actions

/-- In every run, no entry of the dispatch tables of a context dangles or stands for the wrong member. -/
theorem tablesIntact (actions : List Action) (place : Nat) (context : Context)
    (present : (core.actAll actions).contexts[place]? = some context) :
    context.TablesIntact (core.actAll actions).host :=
  @Context.Wired.intact (core.actAll actions).host context (wired_actAll actions place context present)

/-- A type with a visible and a hidden static method by one name. -/
def door : TypeDef :=
  (TypeDef.ofClass "Game" "Door").addMethods
    [{ MethodDef.named "Open" (.native 0) with isStatic := true, parameters := [.plain "code" .int32] },
      { MethodDef.named "Open" (.native 1) with
        isStatic := true
        visibility := .hidden
        parameters := [.plain "key" .string] }]

/-- A door is bound by a context that makes members at their first use. -/
def doorBound : List Action :=
  [.declare door, .addNative fun _ invocation => pure (invocation.complete .null),
    .addNative fun _ invocation => pure (invocation.complete .null), .openContext Config.standard.onDemand,
    .perform 0 (.bind (.declared 14))]

/-- Then its method is used. -/
def doorOpened : List Action :=
  doorBound ++ [.perform 0 (.invokeMember (.table ⟨5⟩) "Open" [.integer 1])]

/-- The slot of a method that was used holds a callable of the methods of its name. -/
theorem tablesIntact_doorOpened :
    ∃ context binding handle callable,
      (core.actAll doorOpened).contexts[0]? = some context ∧
      context.binding? (.declared 14) = some binding ∧
      binding.slot? .classMethods "Open" = some (.bound handle) ∧
      context.callable? handle = some callable ∧ callable.isPlaceholder = false ∧
      callable.Serves (core.actAll doorOpened).host.system (.declared 14) (.classMethods, "Open") := by
  have used : ((core.actAll doorOpened).contexts[0]?.bind fun context =>
      (context.binding? (.declared 14)).bind fun binding =>
        (binding.slot? .classMethods "Open").map MemberSlot.isBound) = some true := by
    decide +kernel
  rcases Option.bind_eq_some_iff.mp used with ⟨context, present, rest⟩
  rcases Option.bind_eq_some_iff.mp rest with ⟨binding, bound, rest⟩
  rcases Option.map_eq_some_iff.mp rest with ⟨slot, found, made⟩
  cases slot with
  | unbound handle => cases made
  | bound handle =>
      rcases (tablesIntact doorOpened 0 context present).bound _ binding _ _ handle bound found with
        ⟨callable, registered, noPlaceholder, serves⟩
      exact ⟨context, binding, handle, callable, present, bound, found, registered, noPlaceholder, serves⟩

end Realm

end ScriptBridge
