import ScriptBridge.Proofs.Natives.Alike
import ScriptBridge.Proofs.Steps.Untouched
import ScriptBridge.Proofs.Tables.Wiring

/-!
# Refused operations

A script operation is refused when nothing takes what the script passed: no overload
matches, a value has the wrong type, a proxy is stale, or there is nothing to write,
call or index. Members look at all that before they run native code and before they
write anything; from there on they fail in other ways only. Hence a refused operation
runs alike whatever becomes of native code, and keeps what its preparations keep.
-/

namespace ScriptBridge

open Bridge

/-- The script asked for something that is not there, or passed something that is not taken. -/
def ScriptError.isRejection : ScriptError → Bool
  | .noMatchingOverload _ _ | .typeMismatch _ | .noSuchField _ _ | .staleProxy _ | .notCallable _
  | .notIndexable _ => true
  | .memberNotFound _ _ | .invocation _ _ | .runtime _ | .tooDeep => false

namespace Bridge

variable {α β ε : Type} {accepts : α → Prop} {accepted : β → Prop}

/-- The result is accepted, or the failure is no rejection. -/
def NotRefused (accepts : α → Prop) : Except ScriptError α → Prop
  | .ok value => accepts value
  | .error error => error.isRejection = false

/-- The operation is never refused, and what it gives is accepted. -/
def Settles (accepts : α → Prop) (action : Bridge ScriptError α) : Prop :=
  ∀ world, NotRefused accepts (exec action world).1

namespace Settles

theorem pure {value : α} (holds : accepts value) : Settles accepts (Pure.pure value) := fun _ => holds

theorem bind {action : Bridge ScriptError α} {next : α → Bridge ScriptError β} (first : Settles accepts action)
    (second : ∀ value, accepts value → Settles accepted (next value)) : Settles accepted (action >>= next) := by
  intro world
  rw [exec_bind]
  have settled := first world
  cases run : exec action world with
  | mk result after =>
      rw [run] at settled
      cases result with
      | error error => exact settled
      | ok value => exact second value settled after

theorem map {action : Bridge ScriptError α} (change : α → β) (settles : Settles accepts action) :
    Settles (fun _ => True) (change <$> action) := by
  rw [← bind_pure_comp]
  exact settles.bind fun _ _ => pure trivial

/-- Failures of another kind that are never seen as rejections. -/
theorem adapt {change : ε → ScriptError} (action : Bridge ε α) (other : ∀ error, (change error).isRejection = false) :
    Settles (fun _ => True) (ExceptT.adapt change action) := by
  intro world
  rw [exec_adapt]
  cases (exec action world).1 with
  | error error => exact other error
  | ok value => trivial

theorem asScript (action : Bridge BindError α) : Settles (fun _ => True) (Bridge.asScript action) :=
  adapt action fun _ => rfl

theorem mapM {next : α → Bridge ScriptError β} (items : List α)
    (each : ∀ item, Settles (fun _ => True) (next item)) : Settles (fun _ => True) (items.mapM next) := by
  induction items with
  | nil => exact pure trivial
  | cons item rest ih =>
      rw [List.mapM_cons]
      exact (each item).bind fun value _ => ih.bind fun values _ => pure trivial

theorem modifyContext (change : Context → Context) : Settles (fun _ => True) (Bridge.modifyContext change) :=
  fun _ => trivial

theorem setStore (store : HostStore) : Settles (fun _ => True) (Bridge.setStore store) := fun _ => trivial

end Settles

end Bridge

namespace Invariant

variable {α β : Type} {accepts : α → Prop} {accepted : β → Prop} (invariant : Invariant)

/-- The same run twice, or one that was not refused. -/
def SameOrSettled (accepts : α → Prop) (run other : Except ScriptError α × World) : Prop :=
  invariant.SameRun run other ∨ NotRefused accepts other.1

/--
From where the invariant holds, both operations do the same and arrive where it holds, unless the second one
is not refused.
-/
def Cautious (accepts : α → Prop) (action other : Bridge ScriptError α) : Prop :=
  ∀ world, invariant.holds world → invariant.SameOrSettled accepts (exec action world) (exec other world)

variable {invariant}

namespace SameOrSettled

theorem of_arrives {run : Except ScriptError α × World} (arrives : invariant.Arrives run) :
    invariant.SameOrSettled accepts run run :=
  .inl (.refl arrives)

theorem mono {run other : Except ScriptError α × World} {weaker : α → Prop}
    (same : invariant.SameOrSettled accepts run other) (implies : ∀ value, accepts value → weaker value) :
    invariant.SameOrSettled weaker run other := by
  refine same.imp_right fun settled => ?_
  revert settled
  cases other.1 with
  | error error => exact id
  | ok value => exact implies value

theorem bind {action other : Bridge ScriptError α} {next otherNext : α → Bridge ScriptError β} {world : World}
    (first : invariant.SameOrSettled accepts (exec action world) (exec other world))
    (settles : ∀ value, accepts value → Settles accepted (otherNext value))
    (second : ∀ value after, exec other world = (.ok value, after) → invariant.holds after →
      invariant.SameOrSettled accepted (exec (next value) after) (exec (otherNext value) after)) :
    invariant.SameOrSettled accepted (exec (action >>= next) world) (exec (other >>= otherNext) world) := by
  rw [exec_bind, exec_bind]
  cases run : exec other world with
  | mk result after =>
      rw [run] at first
      rcases first with ⟨same, arrives⟩ | settled
      · rw [same]
        cases result with
        | error error => exact of_arrives (arrives.imp id fun ⟨told, cause, failed, tells, excused⟩ =>
            ⟨told, cause, congrArg Except.error (Except.error.inj failed), tells, excused⟩)
        | ok value =>
            rcases arrives with holds | ⟨_, _, impossible, _⟩
            · exact second value after run holds
            · cases impossible
      · cases result with
        | error error => exact .inr settled
        | ok value => exact .inr (settles value settled after)

theorem map {action other : Bridge ScriptError α} {world : World} {change : α → β}
    (same : invariant.SameOrSettled accepts (exec action world) (exec other world))
    (implies : ∀ value, accepts value → accepted (change value)) :
    invariant.SameOrSettled accepted (exec (change <$> action) world) (exec (change <$> other) world) := by
  rw [← bind_pure_comp, ← bind_pure_comp]
  exact same.bind (fun value holds => .pure (implies value holds)) fun _ _ _ holds => of_arrives (.inl holds)

theorem after {action : Bridge ScriptError α} {next otherNext : α → Bridge ScriptError β} {world : World}
    (first : invariant.Arrives (exec action world))
    (second : ∀ value after, exec action world = (.ok value, after) → invariant.holds after →
      invariant.SameOrSettled accepted (exec (next value) after) (exec (otherNext value) after)) :
    invariant.SameOrSettled accepted (exec (action >>= next) world) (exec (action >>= otherNext) world) := by
  have same : invariant.SameOrSettled (fun _ => False) (exec action world) (exec action world) := of_arrives first
  exact same.bind (fun _ impossible => impossible.elim) second

end SameOrSettled

namespace Cautious

theorem of_keptBy {action : Bridge ScriptError α} (kept : invariant.KeptBy action) :
    invariant.Cautious accepts action action :=
  fun world holds => .of_arrives (kept world holds)

theorem of_settles {action other : Bridge ScriptError α} (settles : Settles accepts other) :
    invariant.Cautious accepts action other :=
  fun world _ => .inr (settles world)

theorem pure (value : α) : invariant.Cautious accepts (Pure.pure value) (Pure.pure value) := of_keptBy (.pure value)

theorem throw (error : ScriptError) :
    invariant.Cautious accepts (MonadExcept.throw error) (MonadExcept.throw error) :=
  of_keptBy (.throw error)

theorem mono {action other : Bridge ScriptError α} {weaker : α → Prop}
    (cautious : invariant.Cautious accepts action other) (implies : ∀ value, accepts value → weaker value) :
    invariant.Cautious weaker action other :=
  fun world holds => (cautious world holds).mono implies

theorem after {action : Bridge ScriptError α} {next otherNext : α → Bridge ScriptError β}
    (first : invariant.KeptBy action) (second : ∀ value, invariant.Cautious accepted (next value) (otherNext value)) :
    invariant.Cautious accepted (action >>= next) (action >>= otherNext) :=
  fun world holds => .after (first world holds) fun value after _ => second value after

end Cautious

end Invariant

namespace Host

variable {host : Host} {invariant : Invariant} {runner : NativeRunner}

theorem settles_writeBack (key : Option ProxyKey) (receiver : Option HostValue) :
    Settles (fun _ => True) (writeBack key receiver) := by
  simp only [writeBack]
  split
  · split
    · exact .modifyContext _
    · exact .pure trivial
  · exact .pure trivial

theorem settles_push (value : HostValue) : Settles (fun _ => True) (Bridge.asScript (host.push value)) :=
  .asScript _

/-- What native code does is never seen as a rejection. -/
theorem settles_exception {α : Type} (action : Bridge HostException α) :
    Settles (fun _ => True) (ExceptT.adapt ScriptError.ofException action) :=
  .adapt action fun _ => rfl

theorem settles_accessor {α : Type} (verb : String) (owner : TypeRef) (property : String)
    (action : Bridge HostException α) :
    Settles (fun _ => True) (ExceptT.adapt (host.accessorFailure verb owner property) action) :=
  .adapt action fun _ => rfl

theorem FindsInstance.keeps {find : Bridge ScriptError (HostValue × ProxyKey)} (finds : FindsInstance find) :
    invariant.KeptBy find := by
  intro world holds
  left
  rw [(finds world).1]
  exact holds

theorem keptBy_findsReceiver (isStatic : Bool) (type : TypeRef) (activity : String) (arguments : List ScriptValue) :
    invariant.KeptBy (host.memberReceiver isStatic type activity arguments) := by
  intro world holds
  left
  rw [(memberReceiver_stands isStatic type activity arguments world).1]
  exact holds

namespace RespectsPreparation

variable (respects : host.RespectsPreparation invariant)

include respects

theorem cautious_callGroupBy (group : OverloadGroup) (arguments : List ScriptValue) :
    invariant.Cautious (fun _ => True) (host.callGroupBy runner group arguments)
      (host.callGroupBy host.runner group arguments) := by
  refine .after (respects.resolveOverload _ _) fun candidate => .after (respects.hostArguments _ _ _) fun values => ?_
  intro world holds
  refine .after (respects.receiverFor group candidate arguments holds).1 fun (receiver, key) before _ _ => .inr ?_
  refine Settles.bind (settles_exception _) (fun completion _ => ?_) before
  refine .bind (settles_writeBack _ _) fun _ _ => ?_
  split
  · exact .bind (settles_push _) fun _ _ => .pure trivial
  · exact .mapM _ fun value => settles_push value

theorem cautious_constructGroupBy (group : OverloadGroup) (arguments : List ScriptValue) :
    invariant.Cautious (fun _ => True) (host.constructGroupBy runner group arguments)
      (host.constructGroupBy host.runner group arguments) := by
  simp only [constructGroupBy]
  split
  · exact .after (respects.push _) fun _ => .pure _
  · split
    · exact .throw _
    · exact respects.cautious_callGroupBy _ _

end RespectsPreparation

theorem cautious_getItemFromBy (owner : TypeRef) (given : List ScriptValue) (receiver : HostValue × ProxyKey)
    (key : ScriptValue) (properties : List PropertyDef) :
    invariant.Cautious (fun _ => True) (host.getItemFromBy runner owner given receiver key properties)
      (host.getItemFromBy host.runner owner given receiver key properties) := by
  induction properties with
  | nil => exact .pure _
  | cons property rest ih =>
      rw [getItemFromBy, getItemFromBy]
      split
      · refine .after (keptBy_fits _ _) fun taken => ?_
        split
        · refine .after (keptBy_toHost _ _) fun index => .of_settles ?_
          exact .bind (settles_accessor _ _ _ _) fun value _ =>
            .bind (settles_push _) fun _ _ => .pure trivial
        · exact ih
      · exact ih

theorem cautious_getItemBy (owner : TypeRef) (properties : List PropertyDef) (arguments : List ScriptValue) :
    invariant.Cautious (fun _ => True) (host.getItemBy runner owner properties arguments)
      (host.getItemBy host.runner owner properties arguments) := by
  cases properties with
  | nil => exact .pure _
  | cons first rest =>
      exact .after (findsInstance_expectInstance _ _ _).keeps fun receiver => cautious_getItemFromBy _ _ _ _ _

/-- A value that an indexer takes is written, and then nothing is refused any more. -/
theorem cautious_setItemInBy (owner : TypeRef) (given : List ScriptValue) (receiver : HostValue × ProxyKey)
    (key value : ScriptValue) (properties : List PropertyDef) :
    invariant.Cautious (· = [.boolean true]) (host.setItemInBy runner owner given receiver key value properties)
      (host.setItemInBy host.runner owner given receiver key value properties) := by
  induction properties with
  | nil => exact .pure _
  | cons property rest ih =>
      rw [setItemInBy, setItemInBy]
      split
      · refine .after (keptBy_fits _ _) fun taken => ?_
        split
        · refine .after (keptBy_fits _ _) fun fitting => ?_
          dsimp only
          split
          · exact .throw _
          · refine .after (keptBy_toHost _ _) fun index => .after (keptBy_toHost _ _) fun item => .of_settles ?_
            exact .bind (.map _ (settles_accessor _ _ _ _)) fun _ _ => .pure rfl
        · exact ih
      · exact ih

theorem cautious_setItemBy (owner : TypeRef) (properties : List PropertyDef) (arguments : List ScriptValue) :
    invariant.Cautious (· = [.boolean true]) (host.setItemBy runner owner properties arguments)
      (host.setItemBy host.runner owner properties arguments) := by
  cases properties with
  | nil => exact .pure _
  | cons first rest =>
      exact .after (findsInstance_expectInstance _ _ _).keeps fun receiver => cautious_setItemInBy _ _ _ _ _ _

theorem cautious_changeEventBy (owner : TypeRef) (event : EventDef) (arguments : List ScriptValue) :
    invariant.Cautious (fun _ => True) (host.changeEventBy runner owner event arguments)
      (host.changeEventBy host.runner owner event arguments) := by
  refine .after (keptBy_findsReceiver _ _ _ _) fun receiver => ?_
  dsimp only
  split
  · exact .throw _
  · split
    · refine .after (keptBy_toHost _ _) fun delegate => .of_settles ?_
      exact .bind (.map _ (settles_exception _)) fun _ _ => .pure trivial
    · exact .throw _

theorem cautious_setField (field : Field) (arguments : List ScriptValue) :
    invariant.Cautious (fun _ => True) (host.setField field arguments) (host.setField field arguments) := by
  refine .after (keptBy_findsReceiver _ _ _ _) fun target => .after (keptBy_fits _ _) fun taken => ?_
  dsimp only
  split
  · exact .throw _
  · refine .after (keptBy_toHost _ _) fun converted => .after .store fun store => .of_settles ?_
    split
    · exact .bind (.setStore _) fun _ _ => .bind (settles_writeBack _ _) fun _ _ => .pure trivial
    · exact .pure trivial

/-- An element that an array takes is written, and then nothing is refused any more. -/
theorem cautious_writeArray (value : HostValue) (type : TypeRef) (key item : ScriptValue) :
    invariant.Cautious (· = true) (host.writeArray value type key item) (host.writeArray value type key item) := by
  simp only [writeArray]
  split
  · refine .after (keptBy_fits _ _) fun taken => ?_
    split
    · exact .throw _
    · refine .after (keptBy_toHost _ _) fun converted => .after .store fun store => ?_
      split
      · exact .of_settles (.bind (.setStore _) fun _ _ => .pure rfl)
      · exact .throw _
  · exact .pure _

namespace RespectsPreparation

variable (respects : host.RespectsPreparation invariant)

include respects

/-- Members run no native code and write nothing before they refuse what the script passed. -/
theorem cautious_runMemberBy (callable : Callable) (arguments : List ScriptValue) :
    invariant.Cautious (fun _ => True) (host.runMemberBy runner callable arguments)
      (host.runMemberBy host.runner callable arguments) := by
  cases callable with
  | method group => exact respects.cautious_callGroupBy _ _
  | fieldGetter field => exact .of_keptBy (respects.getField _ _)
  | fieldSetter field => exact cautious_setField _ _
  | itemGetter owner properties => exact cautious_getItemBy _ _ _
  | itemSetter owner properties => exact (cautious_setItemBy _ _ _).mono fun _ _ => trivial
  | event owner event => exact cautious_changeEventBy _ _ _
  | constructor group => exact respects.cautious_constructGroupBy _ _
  | delegateConstructor type => exact .of_keptBy (respects.wrapDelegate _ _)
  | enumCast type => exact .of_keptBy (respects.castToEnum _ _)
  | placeholder member => exact .throw _
  | embedder name body => exact .throw _

theorem cautious_runPlaceholderBy (member : PendingMember) (arguments : List ScriptValue) :
    invariant.Cautious (fun _ => True) (host.runPlaceholderBy runner member arguments)
      (host.runPlaceholderBy host.runner member arguments) := by
  refine .after (respects.resolveMember _) fun handle => .after .context fun context => ?_
  split
  · exact .throw _
  · exact respects.cautious_runMemberBy _ _

end RespectsPreparation

end Host

/-- The handle is not that of a function of the embedder. -/
def Context.Generated (context : Context) (handle : CallableHandle) : Prop :=
  ∀ name body, context.callable? handle ≠ some (.embedder name body)

namespace Context

variable {context : Context} {handle : CallableHandle}

theorem generated_of_registered {callable : Callable} (registered : Registered context.callables handle callable)
    (own : ∀ name body, callable ≠ .embedder name body) : context.Generated handle :=
  fun name body found => own name body (Option.some.inj (registered.symm.trans found))

theorem generated_of_worksUnder (works : WorksUnder context.callables handle) : context.Generated handle := by
  rcases works with ⟨callable, registered, generated⟩
  refine generated_of_registered registered fun name body same => ?_
  rw [same] at generated
  cases generated

theorem Wired.generated_slot {system : TypeSystem} (wired : context.Wired system) {type : TypeRef}
    {binding : TypeBinding} (bound : context.binding? type = some binding) {table : MemberTable} {name : String}
    {slot : MemberSlot} (present : binding.slot? table name = some slot) : context.Generated slot.handle := by
  have slotWired := (wired.bindings type binding bound).slots _ (FinMap.mem_entries_of_get? present)
  cases slot with
  | bound handle =>
      rcases slotWired with ⟨callable, registered, serves⟩
      exact generated_of_worksUnder ⟨callable, registered, serves.isGenerated⟩
  | unbound handle =>
      rcases slotWired with ⟨member, registered, -⟩
      exact generated_of_registered registered fun name body impossible => by cases impossible

theorem Wired.generated_staticSetter {system : TypeSystem} (wired : context.Wired system) {key : ScriptValue}
    {chain : List TypeRef} {slot : MemberSlot}
    (found : (key.asString?.bind fun name => Host.staticSetter? context name chain) = some slot) :
    context.Generated slot.handle := by
  rcases Option.bind_eq_some_iff.mp found with ⟨name, -, searched⟩
  rcases List.exists_of_findSome?_eq_some searched with ⟨owner, -, offered⟩
  rcases Option.bind_eq_some_iff.mp offered with ⟨binding, bound, present⟩
  exact wired.generated_slot bound present

end Context

namespace Host

section Scripts

variable {host : Host} {invariant : Invariant} {runner : NativeRunner} {world : World}
  (respects : host.RespectsPreparation invariant) (wires : ∀ {world}, invariant.holds world → world.context.Wired host.system)
  (holds : invariant.holds world)

include respects holds

theorem sameOrSettled_invokeBy {handle : CallableHandle} (generated : world.context.Generated handle)
    (arguments : List ScriptValue) :
    invariant.SameOrSettled (fun _ => True) (exec (host.invokeBy runner handle arguments) world)
      (exec (host.invokeBy host.runner handle arguments) world) := by
  rw [invokeBy, invokeBy, invokeWithinBy, invokeWithinBy, exec_bind_of_ok (exec_context world),
    exec_bind_of_ok (exec_context world)]
  split
  · exact Invariant.Cautious.throw _ world holds
  · exact respects.cautious_runPlaceholderBy _ _ world holds
  next name body found => exact absurd found (generated name body)
  · exact respects.cautious_runMemberBy _ _ world holds

omit respects

/-- Indexers that take a write answer so; a write that they refuse leaves all as it was. -/
theorem sameOrSettled_writeItem {type : TypeRef} {binding : TypeBinding} 
    (wired : binding.Wired host.system world.context.callables type) (target key item : ScriptValue) :
    invariant.SameOrSettled (· = true) (exec (writeItem (host.invokeBy runner) binding target key item) world)
      (exec (writeItem (host.invokeBy host.runner) binding target key item) world) := by
  simp only [writeItem]
  split
  · exact Invariant.Cautious.pure _ world holds
  next setter given =>
    rcases wired.itemSetter setter given with ⟨properties, registered⟩
    have known : world.context.callable? setter = some (.itemSetter type properties) := registered
    have invoked (runner : NativeRunner) (arguments : List ScriptValue) :
        exec (host.invokeBy runner setter arguments) world =
          exec (host.setItemBy runner type properties arguments) world := by
      rw [invokeBy, invokeWithinBy, exec_bind_of_ok (exec_context world), known]
      rfl
    have called : invariant.SameOrSettled (· = [.boolean true])
        (exec (host.invokeBy runner setter [target, key, item]) world)
        (exec (host.invokeBy host.runner setter [target, key, item]) world) := by
      rw [invoked, invoked]
      exact cautious_setItemBy _ _ _ world holds
    have first : invariant.SameOrSettled (· = .boolean true)
        (exec (firstResult (host.invokeBy runner) setter [target, key, item]) world)
        (exec (firstResult (host.invokeBy host.runner) setter [target, key, item]) world) :=
      called.map fun results same => by rw [same]; rfl
    exact first.map fun result same => by rw [same]; rfl

omit holds

/-- An array that does not take a write leaves all as it was. -/
theorem eq_of_writeArray_false {value : HostValue} {type : TypeRef} {key item : ScriptValue} {world after : World}
    (run : exec (host.writeArray value type key item) world = (.ok false, after)) : after = world := by
  simp only [writeArray] at run
  split at run
  · rw [exec_bind_of_ok (exec_fits _ _ world)] at run
    split at run
    · cases run
    · rcases exec_bind_eq_ok run with ⟨converted, middle, -, rest⟩
      rw [exec_bind_of_ok (exec_store middle)] at rest
      split at rest
      · cases rest
      · cases rest
  · exact (Prod.mk.inj run).2.symm

include respects wires

/-- A write along a chain of types is refused before anything is written, or by the last one that does not take it. -/
theorem cautious_writeAlong (proxy : Proxy) (value : HostValue) (key item : ScriptValue) (chain : List TypeRef) :
    invariant.Cautious (fun _ => True) (host.writeAlong (host.invokeBy runner) proxy value key item chain)
      (host.writeAlong (host.invokeBy host.runner) proxy value key item chain) := by
  induction chain with
  | nil => exact .throw _
  | cons type rest ih =>
      intro world holds
      rw [writeAlong, writeAlong, exec_bind_of_ok (exec_context world), exec_bind_of_ok (exec_context world)]
      cases bound : world.context.binding? type with
      | none => exact ih world holds
      | some binding =>
          dsimp only
          split
          next slot found =>
            rcases Option.bind_eq_some_iff.mp found with ⟨name, -, present⟩
            have generated := (wires holds).generated_slot bound present
            exact (sameOrSettled_invokeBy respects holds generated _).map fun _ _ => trivial
          next =>
            refine (cautious_writeArray value type key item world holds).bind
              (fun stored taken => ?_) fun stored after run holds => ?_
            · rw [if_pos taken]
              exact .pure trivial
            cases stored with
            | true => exact Invariant.Cautious.pure _ after holds
            | false =>
                rcases eq_of_writeArray_false run with rfl
                have wired := (wires holds).bindings type binding bound
                refine (sameOrSettled_writeItem holds wired _ _ _).bind (fun taken accepted => ?_)
                  fun taken last _ holds => ?_
                · rw [if_pos accepted]
                  exact .pure trivial
                · split
                  · exact Invariant.Cautious.pure _ last holds
                  · exact ih last holds

theorem cautious_assignInstance (proxy : Proxy) (key item : ScriptValue) :
    invariant.Cautious (fun _ => True) (host.assignInstance (host.invokeBy runner) proxy key item)
      (host.assignInstance (host.invokeBy host.runner) proxy key item) :=
  .after (keptBy_liveValue _) fun _ => .after (respects.ensureBound _).asScript fun _ =>
    .after .context fun _ => cautious_writeAlong respects wires _ _ _ _ _

theorem sameOrSettled_assignType (holds : invariant.holds world) (type : TypeRef) (key item : ScriptValue) :
    invariant.SameOrSettled (fun _ => True)
      (exec (host.assignType (host.invokeBy runner) type key item) world)
      (exec (host.assignType (host.invokeBy host.runner) type key item) world) := by
  rw [assignType, assignType, exec_bind_of_ok (exec_context world), exec_bind_of_ok (exec_context world)]
  dsimp only
  split
  next slot found =>
    have generated := (wires holds).generated_staticSetter found
    exact (sameOrSettled_invokeBy respects holds generated _).map fun _ _ => trivial
  next => exact Invariant.Cautious.throw _ world holds

theorem cautious_assignTable (id : TableId) (key item : ScriptValue) :
    invariant.Cautious (fun _ => True) (host.assignTable (host.invokeBy runner) id key item)
      (host.assignTable (host.invokeBy host.runner) id key item) := by
  simp only [assignTable]
  split
  · exact .throw _
  next entry _ =>
    have write : Settles (fun _ => True) (Bridge.modifyContext fun context =>
      { context with heap := context.heap.set id entry item }) := .modifyContext _
    refine .after .context fun context => ?_
    split
    · split
      · exact fun world holds => sameOrSettled_assignType respects wires holds _ _ _
      · exact .of_settles write
    · exact .of_settles write

theorem cautious_assignBy (target key item : ScriptValue) :
    invariant.Cautious (fun _ => True) (host.assignBy (host.invokeBy runner) target key item)
      (host.assignBy (host.invokeBy host.runner) target key item) := by
  simp only [assignBy]
  split
  · exact cautious_assignInstance respects wires _ _ _
  · exact cautious_assignTable respects wires _ _ _
  · exact .throw _

theorem cautious_constructBy (function : ScriptValue) (arguments : List ScriptValue) :
    invariant.Cautious (fun _ => True) (host.constructBy (host.invokeBy runner) function arguments)
      (host.constructBy (host.invokeBy host.runner) function arguments) := by
  intro world holds
  rw [constructBy, constructBy, exec_bind_of_ok (exec_context world), exec_bind_of_ok (exec_context world)]
  split
  · exact Invariant.Cautious.throw _ world holds
  next type _ =>
    cases bound : world.context.binding? type with
    | none => exact Invariant.Cautious.throw _ world holds
    | some binding =>
        dsimp only
        split
        next handle given =>
          have works := ((wires holds).bindings type binding bound).constructor handle given
          exact sameOrSettled_invokeBy respects holds (Context.generated_of_worksUnder works.worksUnder) _
        next => exact Invariant.Cautious.throw _ world holds

end Scripts

end Host

/-- What scripts do that reaches members at once: writing, constructing, and calling a member. -/
inductive Operation.Direct (context : Context) : Operation → Prop
  | assign (target key value : ScriptValue) : Direct context (.assign target key value)
  | construct (function : ScriptValue) (arguments : List ScriptValue) :
      Direct context (.construct function arguments)
  | callType (id : TableId) (arguments : List ScriptValue) : Direct context (.call (.table id) arguments)
  | callMember (handle : CallableHandle) (arguments : List ScriptValue) (generated : context.Generated handle) :
      Direct context (.call (.function handle) arguments)

namespace Host

variable {host : Host} {invariant : Invariant} {runner : NativeRunner} {world after : World}

theorem sameRun_answerScript {α : Type} {action other : Bridge ScriptError α} {error : ScriptError}
    (answer : α → Answer)
    (same : invariant.SameOrSettled (fun _ => True) (exec action world) (exec other world))
    (refused : exec (answerScript other answer) world = (.error (.script error), after))
    (rejection : error.isRejection = true) :
    invariant.SameRun (exec (answerScript action answer) world) (exec (answerScript other answer) world) := by
  rcases same with same | settled
  · have adapted : invariant.SameRun (exec (ExceptT.adapt Failure.script action) world)
        (exec (ExceptT.adapt Failure.script other) world) :=
      same.adapt fun _ _ told => .inr (congrArg Failure.script told)
    exact adapted.map answer
  · rw [answerScript, exec_map, exec_adapt] at refused
    cases run : (exec other world).1 with
    | ok value =>
        rw [run] at refused
        cases (Prod.mk.inj refused).1
    | error found =>
        rw [run] at refused settled
        rcases Failure.script.inj (Except.error.inj (Prod.mk.inj refused).1) with rfl
        rw [NotRefused, rejection] at settled
        cases settled

/-- A direct operation that is refused runs alike whatever becomes of native code. -/
theorem sameRun_of_refused {operation : Operation} {error : ScriptError}
    (respects : host.RespectsPreparation invariant)
    (wires : ∀ {world}, invariant.holds world → world.context.Wired host.system) (holds : invariant.holds world)
    (direct : operation.Direct world.context)
    (refused : exec (host.perform operation) world = (.error (.script error), after))
    (rejection : error.isRejection = true) :
    invariant.SameRun (exec (host.performBy runner operation) world) (exec (host.perform operation) world) := by
  rw [← performBy_runner] at refused ⊢
  cases direct with
  | assign target key value =>
      exact sameRun_answerScript _ (cautious_assignBy respects wires _ _ _ world holds) refused rejection
  | construct function arguments =>
      exact sameRun_answerScript _ (cautious_constructBy respects wires _ _ world holds) refused rejection
  | callType id arguments =>
      refine sameRun_answerScript _ ?_ refused rejection
      simp only [callBy, exec_bind_of_ok (exec_context world)]
      split
      · exact cautious_constructBy respects wires _ _ world holds
      · exact Invariant.Cautious.throw _ world holds
  | callMember handle arguments generated =>
      exact sameRun_answerScript _ (sameOrSettled_invokeBy respects holds generated arguments) refused rejection

/-- A direct operation that is refused has run no native code and left everything of the host as it was. -/
theorem callsNothing_of_refused {operation : Operation} {error : ScriptError}
    (wired : world.context.Wired host.system) (consistent : world.context.cache.Consistent)
    (direct : operation.Direct world.context)
    (refused : exec (host.perform operation) world = (.error (.script error), after))
    (rejection : error.isRejection = true) :
    host.CallsOnly (fun _ _ => False) operation world ∧ world.Untouched after := by
  have respects : host.RespectsPreparation (host.wiring.both (.untouched world)) :=
    (respects_wiring host).toRespectsPreparation.both (host.respects_untouched world)
  have same (runner : NativeRunner) := @sameRun_of_refused host _ runner world after operation error respects And.left
    ⟨wired, Invariant.untouched_start consistent⟩ direct refused rejection
  refine ⟨fun runner _ => (same runner).same, ?_⟩
  have holds := (same host.runner).arrives.holds fun _ excused => excused.elim id id
  rw [refused] at holds
  exact holds.2.2

end Host

end ScriptBridge
