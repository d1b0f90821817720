import ScriptBridge.Proofs.Host.Delegates
import ScriptBridge.Proofs.Realms.Bindings
import ScriptBridge.Proofs.Realms.Lookup
import ScriptBridge.Proofs.Tables.Bindings
import ScriptBridge.Proofs.Tables.Lasting

/-!
# Reading a member function twice

Reading the name of a method or an event gives the function of its slot. Between two
reads of the same slot nothing but the first use of its member changes that function:
where members are made at their first use, the function that was read before is the
placeholder, and afterwards it is the member. Where they are made at once, or once a
member has been used, the function stays the same, and a handler can be taken off an
event by reading it again.
-/

namespace ScriptBridge

open Bridge

/-- Nothing in a binding, on the way of a read of an instance, takes a name. -/
structure TypeBinding.PassesOver (host : Host) (context : Context) (type : TypeRef) (name : String)
    (binding : TypeBinding) : Prop where
  methods : binding.slot? .methods name = none
  getters : binding.slot? .getters name = none
  elements : type.isArray = true → name ≠ "Length"
  indexers : ∀ getter, binding.itemGetter = some getter →
    ∃ properties, Registered context.callables getter (.itemGetter type properties) ∧
      ∀ property ∈ properties, property.getter.isSome = true → ∀ index, Host.keyType? property = some index →
        context.fits host.system (.string name) index = false

theorem TypeBinding.PassesOver.offersRead {host : Host} {context : Context} {type : TypeRef} {name : String}
    {binding : TypeBinding} (passes : binding.PassesOver host context type name) (read : HostValue) :
    binding.offersRead host context read name type = false := by
  have notTaken : context.takesName host name (context.gettableItems binding) = false := by
    rw [Context.gettableItems]
    cases given : binding.itemGetter with
    | none => rfl
    | some getter =>
        rcases passes.indexers getter given with ⟨properties, registered, foreign⟩
        rw [Option.bind_some, show context.callable? getter = _ from registered]
        exact Context.not_takesName_iff.mpr fun property listed =>
          foreign property (List.mem_filter.mp listed).1 (List.mem_filter.mp listed).2
  have noLength : (type.isArray && read.asObject?.isSome && name == "Length") = false := by
    cases isArray : type.isArray with
    | false => rfl
    | true => simp [passes.elements isArray]
  rw [TypeBinding.offersRead, TypeBinding.hasRead, passes.methods, passes.getters, noLength, notTaken]
  rfl

/-- The table of the member functions that are read from a value: an instance has its own. -/
def ScriptValue.memberTable : ScriptValue → MemberTable
  | .proxy _ => .methods
  | _ => .classMethods

/-- A live instance of a bound type, or the table of a type, offers a member function by a name, from a slot of an owner. -/
inductive Context.Offers (host : Host) (context : Context) (name : String) :
    ScriptValue → TypeRef → MemberSlot → Prop
  | onInstance {proxy : Proxy} {passed rest : List TypeRef} {owner : TypeRef} {binding : TypeBinding}
      {slot : MemberSlot}
      (live : context.cache.owns proxy = true)
      (isBound : context.isBound proxy.type = true)
      (chain : context.lookupChain host.system proxy.type = passed ++ owner :: rest)
      (others : ∀ type ∈ passed, ∀ other, context.binding? type = some other →
        other.PassesOver host context type name)
      (bound : context.binding? owner = some binding)
      (found : binding.slot? .methods name = some slot) : Offers host context name (.proxy proxy) owner slot
  | onType {id : TableId} {type : TypeRef} {passed rest : List TypeRef} {owner : TypeRef} {binding : TypeBinding}
      {slot : MemberSlot}
      (stands : context.heap.kind? id = some (.type type))
      (vacant : context.heap.get id (.string name) = .nil)
      (chain : context.lookupChain host.system type = passed ++ owner :: rest)
      (others : ∀ type ∈ passed, ∀ other, context.binding? type = some other →
        other.slot? .classMethods name = none ∧ other.slot? .classGetters name = none)
      (clear : ∀ type ∈ (passed ++ [owner]).tail, ∀ other, context.binding? type = some other →
        context.heap.get other.classTable (.string name) = .nil)
      (bound : context.binding? owner = some binding)
      (found : binding.slot? .classMethods name = some slot) : Offers host context name (.table id) owner slot

theorem Context.Offers.slot? {host : Host} {context : Context} {name : String} {target : ScriptValue}
    {owner : TypeRef} {slot : MemberSlot} (offers : context.Offers host name target owner slot) :
    ∃ binding, context.binding? owner = some binding ∧
      binding.slots.get? (target.memberTable, name) = some slot := by
  cases offers with
  | onInstance _ _ _ _ bound found => exact ⟨_, bound, found⟩
  | onType _ _ _ _ _ bound found => exact ⟨_, bound, found⟩

/-- The table of a type offers the static members of the type itself. -/
theorem Context.offers_of_own {host : Host} {context : Context} {name : String} {id : TableId} {type : TypeRef}
    {slot : MemberSlot} (stands : context.heap.kind? id = some (.type type))
    (vacant : context.heap.get id (.string name) = .nil)
    (found : ((context.binding? type).bind (·.slot? .classMethods name)) = some slot) :
    context.Offers host name (.table id) type slot := by
  rcases Option.bind_eq_some_iff.mp found with ⟨binding, bound, present⟩
  exact .onType stands vacant (List.nil_append _).symm (fun _ none => absurd none List.not_mem_nil)
    (fun _ none => absurd none List.not_mem_nil) bound present

namespace Host

variable {host : Host} {world : World} {proxy : Proxy} {value : HostValue} {type : TypeRef} {name : String}

/-- A read goes past the types along a chain that do not take the name. -/
theorem exec_readAlong_append (wired : world.context.Wired host.system) (read : HostValue)
    (live : world.context.cache.resolve? proxy = some value) {passed : List TypeRef}
    (fits : ∀ type ∈ passed, world.context.fits host.system (.proxy proxy) type = true)
    (others : ∀ type ∈ passed, ∀ other, world.context.binding? type = some other →
      other.PassesOver host world.context type name) (rest : List TypeRef) :
    exec (host.readAlong host.invoke proxy read (.string name) (passed ++ rest)) world =
      exec (host.readAlong host.invoke proxy read (.string name) rest) world := by
  induction passed with
  | nil => rfl
  | cons type passed ih =>
      have passes : world.context.reads host read name type = false := by
        rw [Context.reads]
        cases bound : world.context.binding? type with
        | none => rfl
        | some other => exact (others type List.mem_cons_self other bound).offersRead read
      rw [List.cons_append, exec_readAlong_of_not_reads wired live (fits type List.mem_cons_self) passes]
      exact ih (fun other listed => fits other (List.mem_cons_of_mem _ listed))
        fun other listed => others other (List.mem_cons_of_mem _ listed)

/--
A read of static members goes along a chain likewise; from the second type on, tables are looked at too. What
becomes of it is up to the first type that offers the name.
-/
theorem exec_readStaticAlong_append {invoke : Invoker} {passed rest : List TypeRef} {owner : TypeRef}
    {binding : TypeBinding} (isFirst : Bool)
    (others : ∀ type ∈ passed, ∀ other, world.context.binding? type = some other →
      other.slot? .classMethods name = none ∧ other.slot? .classGetters name = none)
    (clear : ∀ type ∈ if isFirst then (passed ++ [owner]).tail else passed ++ [owner], ∀ other,
      world.context.binding? type = some other → world.context.heap.get other.classTable (.string name) = .nil)
    (bound : world.context.binding? owner = some binding) :
    exec (readStaticAlong invoke name isFirst (passed ++ owner :: rest)) world =
      exec (match binding.slot? .classMethods name, binding.slot? .classGetters name with
        | some slot, _ => return some (.function slot.handle)
        | none, some slot => return some (← firstResult invoke slot.handle [])
        | none, none => readStaticAlong invoke name false rest) world := by
  induction passed generalizing isFirst with
  | nil =>
      have entry : (if isFirst = true then ScriptValue.nil
          else world.context.heap.get binding.classTable (.string name)) = .nil := by
        cases isFirst with
        | true => rfl
        | false => exact clear owner (by simp) binding bound
      rw [List.nil_append, readStaticAlong, exec_bind_of_ok (exec_context world)]
      simp only [bound, entry]
      rfl
  | cons type passed ih =>
      have later := ih false (fun other listed => others other (List.mem_cons_of_mem _ listed)) (by
        intro other listed
        refine clear other ?_
        cases isFirst <;> simp_all)
      rw [List.cons_append, readStaticAlong, exec_bind_of_ok (exec_context world)]
      cases bound : world.context.binding? type with
      | none => exact later
      | some other =>
          have entry : (if isFirst = true then ScriptValue.nil
              else world.context.heap.get other.classTable (.string name)) = .nil := by
            cases isFirst with
            | true => rfl
            | false => exact clear type (by simp) other bound
          rcases others type List.mem_cons_self other bound with ⟨noMethod, noGetter⟩
          simp only [entry, noMethod, noGetter]
          exact later

/-- Reads the value of a live instance, and binds the type of the instance if it has to be. -/
def ready (host : Host) (target : ScriptValue) : Bridge ScriptError Unit := do
  match target with
  | .proxy proxy =>
      discard (host.liveValue proxy)
      Bridge.asScript (host.ensureBound proxy.type)
  | _ => return

/-- A read of an instance that is ready comes to the types of the chain that may take the name. -/
theorem exec_index_of_passed {begun : World} (wired : begun.context.Wired host.system)
    (ready : exec (host.ready (.proxy proxy)) world = (.ok (), begun)) (live : begun.context.cache.owns proxy = true)
    (isBound : begun.context.isBound proxy.type = true) {passed rest : List TypeRef}
    (chain : begun.context.lookupChain host.system proxy.type = passed ++ rest)
    (others : ∀ type ∈ passed, ∀ other, begun.context.binding? type = some other →
      other.PassesOver host begun.context type name) :
    ∃ read, exec (host.index (.proxy proxy) (.string name)) world =
      exec (host.readAlong host.invoke proxy read (.string name) rest) begun := by
  rcases Option.isSome_iff_exists.mp live with ⟨value, resolved⟩
  rcases exec_bind_eq_ok ready with ⟨_, alive, reading, binds⟩
  rcases exec_discard_eq_ok reading with ⟨read, reading⟩
  have fits := fun type (listed : type ∈ passed) =>
    Context.fits_of_lookupChain wired resolved isBound (by rw [chain]; exact List.mem_append_left _ listed)
  refine ⟨read, ?_⟩
  rw [index, indexBy, indexInstance, exec_bind_of_ok reading, exec_bind_of_ok binds,
    exec_bind_of_ok (exec_context begun), chain, exec_readAlong_append wired read resolved fits others]

/-- A read of the table of a type gives what is found along the chain, if the table has no entry of its own. -/
theorem exec_index_of_found {id : TableId} (stands : world.context.heap.kind? id = some (.type type))
    (vacant : world.context.heap.get id (.string name) = .nil) {found : Bridge ScriptError ScriptValue}
    (read : exec (readStaticAlong host.invoke name true (world.context.lookupChain host.system type)) world =
      exec (do return some (← found)) world) :
    exec (host.index (.table id) (.string name)) world = exec found world := by
  rw [index, indexBy, indexTable, exec_bind_of_ok (exec_context world)]
  simp only [ScriptKey.ofValue?, Option.elim_some, vacant, ScriptValue.isNil, decide_true, Bool.not_true, stands,
    indexType, ScriptValue.asString?]
  rw [if_neg Bool.false_ne_true, exec_bind_of_ok (exec_context world), exec_bind, read, exec_bind]
  cases exec found world with
  | mk result after => cases result <;> rfl

/-- Reading what is offered once the type of the target is bound gives the function of the slot. -/
theorem exec_index_of_offers {begun : World} (wired : begun.context.Wired host.system) {target : ScriptValue}
    (ready : exec (host.ready target) world = (.ok (), begun)) {owner : TypeRef} {slot : MemberSlot}
    (offers : begun.context.Offers host name target owner slot) :
    exec (host.index target (.string name)) world = (.ok (.function slot.handle), begun) := by
  cases offers with
  | onInstance live isBound chain others bound found =>
      rcases exec_index_of_passed wired ready live isBound chain others with ⟨read, same⟩
      rw [same, readAlong, exec_bind_of_ok (exec_context begun)]
      simp only [bound, instanceMember?, found, exec_pure]
  | onType stands vacant chain others clear bound found =>
      obtain rfl := (Prod.mk.inj ready).2
      refine @exec_index_of_found _ _ _ _ _ stands vacant (pure (.function _)) ?_
      rw [chain, exec_readStaticAlong_append true others (by simpa using clear) bound]
      simp only [found]
      rfl

theorem keptBy_ready {invariant : Invariant} (respects : host.RespectsPreparation invariant) (target : ScriptValue) :
    invariant.KeptBy (host.ready target) := by
  cases target with
  | proxy proxy => exact .bind (.discard (keptBy_liveValue _)) fun _ => (respects.ensureBound _).asScript
  | _ => exact .pure _

theorem wired_ready {begun : World} (wired : world.context.Wired host.system) {target : ScriptValue}
    (run : exec (host.ready target) world = (.ok (), begun)) : begun.context.Wired host.system :=
  (keptBy_ready (respects_wiring host).toRespectsPreparation target).holds_of_ok wired run

theorem exec_ready_of_live (live : world.context.cache.owns proxy = true)
    (isBound : world.context.isBound proxy.type = true) :
    exec (host.ready (.proxy proxy)) world = (.ok (), world) := by
  rcases Option.isSome_iff_exists.mp live with ⟨value, resolved⟩
  rw [ready, exec_bind, exec_discard, exec_liveValue_of_live resolved]
  exact exec_ensureBound_of_isBound isBound

/-- What is offered is ready to be read. -/
theorem exec_ready_of_offers {target : ScriptValue} {owner : TypeRef} {slot : MemberSlot}
    (offers : world.context.Offers host name target owner slot) :
    exec (host.ready target) world = (.ok (), world) := by
  cases offers with
  | onInstance live isBound => exact exec_ready_of_live live isBound
  | onType => rfl

end Host

/-- A handler that was added to an event is taken off again by the same function, whatever delegate wraps it. -/
theorem Delegate.remove_combine {current : HostValue} (handlers : current = .null ∨
      ∃ present : Delegate, current = .delegate present ∧ present.targets ≠ [])
    (type other : TypeRef) (target : UInt64) :
    remove (combine current ⟨type, [target]⟩) ⟨other, [target]⟩ = current := by
  rcases handlers with rfl | ⟨present, rfl, some⟩
  · exact remove_combine_of_perm .nothing (.refl _)
  · exact remove_combine_of_perm (.delegate present some) (.refl _)

namespace Realm

variable {realm : Realm} {place : Nat} {context : Context} {type : TypeRef}

/-- In every run, no slot waits for its member if the members are made as the type is bound. -/
theorem prompt_actAll (actions : List Action) (present : (core.actAll actions).contexts[place]? = some context)
    {binding : TypeBinding} (bound : context.binding? type = some binding) : binding.Prompt :=
  @forall_contexts_actAll (fun _ context => ∀ type binding, context.binding? type = some binding → binding.Prompt)
    (fun _ _ _ _ impossible => by cases impossible) (fun _ _ _ => id)
    (fun realm _ operation every =>
      Host.everyBinding_perform (Host.keepsBindings_prompt realm.host) operation every)
    actions place context present type binding bound

/-- A read of what is offered leaves the context with the type of the target bound, and does nothing else. -/
theorem act_index {begun : World} {target : ScriptValue} {name : String} {slot : MemberSlot}
    (present : realm.contexts[place]? = some context)
    (read : exec (realm.host.index target (.string name)) ⟨realm.store, context, []⟩ =
      (.ok (.function slot.handle), begun)) :
    (realm.act (.perform place (.index target (.string name)))).contexts[place]? = some begun.context := by
  have bound := (Array.getElem?_eq_some_iff.mp present).1
  rw [act_perform present, Host.perform, Host.answerScript, exec_map, exec_adapt, read]
  simp [bound]

/-- Reading what a context of a run offers gives the function of its slot, and changes nothing. -/
theorem exec_index_of_offers (actions : List Action) (present : (core.actAll actions).contexts[place]? = some context)
    {target : ScriptValue} {name : String} {owner : TypeRef} {slot : MemberSlot}
    (offers : context.Offers (core.actAll actions).host name target owner slot) :
    exec ((core.actAll actions).host.index target (.string name)) ⟨(core.actAll actions).store, context, []⟩ =
      (.ok (.function slot.handle), ⟨(core.actAll actions).store, context, []⟩) :=
  Host.exec_index_of_offers (wired_actAll actions place context present) (Host.exec_ready_of_offers offers) offers

/--
A member function keeps its identity but for the first use of its member. In every run: a read of a name that a live
instance or the table of a type offers gives the function of its slot, and a later read the function that the slot has
then. If the type that the slot is from has stayed bound in between and has not been shown any more hidden members,
the slot is the same unless it waited for its member at the first read and has it at the second. Where members are
made as their type is bound it always is the same, and then a handler that was added to an event is removed again.
-/
theorem memberFunctions_last (actions : List Action) (place : Nat) (context : Context)
    (present : (core.actAll actions).contexts[place]? = some context) (target : ScriptValue) (name : String)
    (begun : World)
    (ready : exec ((core.actAll actions).host.ready target) ⟨(core.actAll actions).store, context, []⟩ = (.ok (), begun))
    (owner : TypeRef) (first : MemberSlot)
    (offered : begun.context.Offers (core.actAll actions).host name target owner first)
    (later : List Action) (kept : ∀ action ∈ later, action ≠ .perform place (.unbind owner)) (last : Context)
    (second : MemberSlot) :
    let host := (core.actAll actions).host
    let again := core.actAll (actions ++ .perform place (.index target (.string name)) :: later)
    again.contexts[place]? = some last → last.Offers again.host name target owner second →
    (∀ before after, begun.context.binding? owner = some before → last.binding? owner = some after →
      after.showsHidden = before.showsHidden) →
    exec (host.index target (.string name)) ⟨(core.actAll actions).store, context, []⟩ =
        (.ok (.function first.handle), begun) ∧
      exec (again.host.index target (.string name)) ⟨again.store, last, []⟩ =
        (.ok (.function second.handle), ⟨again.store, last, []⟩) ∧
      (second = first ∨ first.isBound = false ∧ second.isBound = true) ∧
      (∀ binding, begun.context.binding? owner = some binding → binding.mode = .eager → second = first) ∧
      (second = first → ∀ current : HostValue,
        (current = .null ∨ ∃ handlers : Delegate, current = .delegate handlers ∧ handlers.targets ≠ []) →
        ∀ added removed, Delegate.remove (Delegate.combine current ⟨added, [first.handle.target]⟩)
          ⟨removed, [second.handle.target]⟩ = current) := by
  intro host again lastPresent stillOffered shown
  have wired : begun.context.Wired host.system :=
    @Host.wired_ready host ⟨_, context, []⟩ begun (wired_actAll actions place context present) _ ready
  have read := Host.exec_index_of_offers wired ready offered
  have stays := act_index present read
  have reread := exec_index_of_offers _ lastPresent stillOffered
  rcases offered.slot? with ⟨before, bound, found⟩
  have settles : first.SettlesInto second := by
    rcases boundAs_actAll Host.lasts_perform stays ⟨before, bound, .refl before⟩ kept with
      ⟨reached, reachedPresent, after, boundAfter, lasts⟩
    rw [← actAll_cons, ← actAll_append] at reachedPresent
    obtain rfl := Option.some.inj (lastPresent.symm.trans reachedPresent)
    rcases stillOffered.slot? with ⟨same, boundSame, foundSame⟩
    obtain rfl := Option.some.inj (boundAfter.symm.trans boundSame)
    rcases lasts.settled (shown before after bound boundAfter) _ _ found with ⟨next, foundNext, settles⟩
    rwa [← Option.some.inj (foundNext.symm.trans foundSame)]
  refine ⟨read, reread, settles, fun binding boundToo eager => ?_, fun same current handlers added removed => ?_⟩
  · obtain rfl := Option.some.inj (bound.symm.trans boundToo)
    have made : first.isBound = true := by
      rw [← actAll_nil ((core.actAll actions).act _), ← actAll_cons, ← actAll_append] at stays
      exact prompt_actAll _ stays bound eager _ (FinMap.mem_entries_of_get? found)
    exact settles.resolve_right fun ⟨waits, _⟩ => by simp [made] at waits
  · rw [same]
    exact Delegate.remove_combine handlers added removed _

/-- The table of doors offers the method from a slot, and the hidden members of doors are not shown. -/
def OffersOpen (context : Context) (slot : MemberSlot) : Prop :=
  context.heap.kind? ⟨5⟩ = some (TableKind.type (.declared 14)) ∧ context.heap.get ⟨5⟩ (.string "Open") = .nil ∧
    (context.binding? (.declared 14)).map (fun binding => (binding.slot? .classMethods "Open", binding.showsHidden)) =
      some (some slot, false)

instance (context : Context) (slot : MemberSlot) : Decidable (OffersOpen context slot) :=
  inferInstanceAs (Decidable (_ ∧ _))

theorem OffersOpen.offers {slot : MemberSlot} (offersOpen : OffersOpen context slot) (host : Host) :
    context.Offers host "Open" (.table ⟨5⟩) (.declared 14) slot := by
  rcases offersOpen with ⟨stands, vacant, both⟩
  rcases Option.map_eq_some_iff.mp both with ⟨binding, bound, same⟩
  exact Context.offers_of_own stands vacant (by rw [bound]; exact (Prod.mk.inj same).1)

theorem OffersOpen.hides {slot : MemberSlot} (offersOpen : OffersOpen context slot) {binding : TypeBinding}
    (bound : context.binding? (.declared 14) = some binding) : binding.showsHidden = false := by
  rcases Option.map_eq_some_iff.mp offersOpen.2.2 with ⟨found, present, same⟩
  obtain rfl := Option.some.inj (bound.symm.trans present)
  exact (Prod.mk.inj same).2

/-- Once the door has been opened, the function that opens it stays the same while it is called. -/
theorem memberFunctions_last_doorOpened :
    let read := Action.perform 0 (.index (.table ⟨5⟩) (.string "Open"))
    let again := core.actAll (doorOpened ++ [read, .perform 0 (.invokeMember (.table ⟨5⟩) "Open" [.integer 2])])
    ∃ context last,
      (core.actAll doorOpened).contexts[0]? = some context ∧ again.contexts[0]? = some last ∧
      exec ((core.actAll doorOpened).host.index (.table ⟨5⟩) (.string "Open"))
          ⟨(core.actAll doorOpened).store, context, []⟩ =
        (.ok (.function ⟨1⟩), ⟨(core.actAll doorOpened).store, context, []⟩) ∧
      exec (again.host.index (.table ⟨5⟩) (.string "Open")) ⟨again.store, last, []⟩ =
        (.ok (.function ⟨1⟩), ⟨again.store, last, []⟩) := by
  intro read again
  have reached : (core.actAll doorOpened).contexts[0]?.any fun context => OffersOpen context (.bound ⟨1⟩) := by
    decide +kernel
  have reachedAgain : again.contexts[0]?.any fun context => OffersOpen context (.bound ⟨1⟩) := by
    decide +kernel
  rcases Option.any_eq_true _ _ |>.mp reached with ⟨context, present, offered⟩
  rcases Option.any_eq_true _ _ |>.mp reachedAgain with ⟨last, lastPresent, offeredAgain⟩
  have first := of_decide_eq_true offered
  have second := of_decide_eq_true offeredAgain
  have kept := @ne_unbind_of_mem_singleton 0 (.declared 14) (.invokeMember (.table ⟨5⟩) "Open" [.integer 2])
    Operation.noConfusion
  rcases memberFunctions_last doorOpened 0 context present (.table ⟨5⟩) "Open" _ rfl (.declared 14) (.bound ⟨1⟩)
    (first.offers _) _ kept last (.bound ⟨1⟩) lastPresent (second.offers _)
    (fun _ _ before after => by rw [first.hides before, second.hides after]) with ⟨read, reread, -⟩
  exact ⟨context, last, present, lastPresent, read, reread⟩

/-- A member function need not keep its identity: the first use of a member that was not made changes it. -/
theorem not_forall_functions_last :
    ¬∀ (actions : List Action) (place : Nat) (context : Context) (target : ScriptValue) (name : String)
      (owner : TypeRef) (slot later : MemberSlot) (function again : CallableHandle) (arguments : List ScriptValue)
      (last : Context),
      let realm := core.actAll actions
      let after := core.actAll (actions ++ [.perform place (.call (.function function) arguments)])
      realm.contexts[place]? = some context → context.Offers realm.host name target owner slot →
      after.contexts[place]? = some last → last.Offers after.host name target owner later →
      (exec (realm.host.index target (.string name)) ⟨realm.store, context, []⟩).1 = .ok (.function function) →
      (exec (after.host.index target (.string name)) ⟨after.store, last, []⟩).1 = .ok (.function again) →
      again = function := by
  intro claim
  let realm := core.actAll doorBound
  let after := core.actAll (doorBound ++ [.perform 0 (.call (.function ⟨0⟩) [.integer 1])])
  have reached : realm.contexts[0]?.any fun context => OffersOpen context (.unbound ⟨0⟩) := by decide +kernel
  have reachedAgain : after.contexts[0]?.any fun context => OffersOpen context (.bound ⟨1⟩) := by decide +kernel
  rcases Option.any_eq_true _ _ |>.mp reached with ⟨context, present, offered⟩
  rcases Option.any_eq_true _ _ |>.mp reachedAgain with ⟨last, lastPresent, offeredAgain⟩
  have first := (of_decide_eq_true offered).offers realm.host
  have second := (of_decide_eq_true offeredAgain).offers after.host
  have read := exec_index_of_offers doorBound present first
  have reread := exec_index_of_offers _ lastPresent second
  have same := claim doorBound 0 context (.table ⟨5⟩) "Open" (.declared 14) (.unbound ⟨0⟩) (.bound ⟨1⟩) ⟨0⟩ ⟨1⟩
    [.integer 1] last present first lastPresent second (congrArg Prod.fst read) (congrArg Prod.fst reread)
  exact absurd same (by decide)

end Realm

end ScriptBridge
