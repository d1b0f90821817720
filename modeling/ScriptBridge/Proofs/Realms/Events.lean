import ScriptBridge.Proofs.Host.Delegates
import ScriptBridge.Proofs.Host.RuntimeTypes
import ScriptBridge.Proofs.Realms.Fields

/-!
# Handlers of events

An event keeps its handlers in a field of its own name. Scripts add and remove functions
through the wrapper of the event, one at a time. What is in the field after each of these
calls is told by a list of functions, to which a function is appended, or from which its
last occurrence is taken. A copied receiver carries the field itself, so that the copy
with the new handlers has to take the place of the one behind its proxy.
-/

namespace ScriptBridge

open Bridge

/-- What a script asks of an event: to call a function, or not to call it any more. -/
inductive HandlerRequest where
  | subscribe (function : CallableHandle)
  | unsubscribe (function : CallableHandle)

namespace HandlerRequest

def function : HandlerRequest → CallableHandle
  | subscribe handle | unsubscribe handle => handle

/-- What the wrapper of an event is called with, after the instance. -/
def arguments : HandlerRequest → List ScriptValue
  | subscribe handle => [.string "+", .function handle]
  | unsubscribe handle => [.string "-", .function handle]

/-- The functions that are to be called after a request. -/
def after (handlers : List CallableHandle) : HandlerRequest → List CallableHandle
  | subscribe handle => handlers ++ [handle]
  | unsubscribe handle => withoutLast handle handlers

/-- How the accessor for a request changes what the field of an event holds. -/
def change : HandlerRequest → HostValue → Delegate → HostValue
  | subscribe _ => Delegate.combine
  | unsubscribe _ => Delegate.remove

/-- The accessor of an event for a request. -/
def accessor (event : EventDef) : HandlerRequest → MethodDef
  | subscribe _ => event.add
  | unsubscribe _ => event.remove

/-- A delegate of one function changes the handlers of an event just as the function changes the list of them. -/
theorem keeps_change (request : HandlerRequest) {current : HostValue} {handlers : List CallableHandle}
    (same : current.handlers = handlers.map CallableHandle.target) (type : TypeRef) :
    (request.change current ⟨type, [request.function.target]⟩).Keeps
      ((request.after handlers).map CallableHandle.target) := by
  cases request with
  | subscribe handle =>
      have keeps := @Delegate.keeps_combine current ⟨type, [handle.target]⟩ (List.cons_ne_nil _ _)
      rwa [same, ← List.map_singleton, ← List.map_append] at keeps
  | unsubscribe handle =>
      have injective : Function.Injective CallableHandle.target := fun first second same =>
        Option.some.inj (by rw [← CallableHandle.ofTarget?_target first, same, CallableHandle.ofTarget?_target])
      have keeps := Delegate.keeps_remove current ⟨type, [handle.target]⟩
      rwa [same, Delegate.removeAll, List.foldl_cons, List.foldl_nil, Delegate.removeLast_eq,
        ← map_withoutLast injective] at keeps

end HandlerRequest

/-- Both accessors of an event work on one field. -/
structure EventDef.WorksOn (event : EventDef) (field : FieldDef) : Prop where
  isStatic : event.isStatic = field.isStatic
  add : event.add.body = .subscribe field.name field.isStatic
  remove : event.remove.body = .unsubscribe field.name field.isStatic

/-- An event that is added to a type works on the field that is added with it. -/
theorem TypeDef.worksOn_addEvent {definition : TypeDef} {name : String} {handlerType : TypeRef} {isStatic : Bool}
    {initial : HostValue} {event : EventDef} {field : FieldDef}
    (added : (definition.addEvent name handlerType isStatic initial).events.getLast? = some event)
    (kept : (definition.addEvent name handlerType isStatic initial).fields.getLast? = some field) :
    event.WorksOn field := by
  rw [addEvent, List.getLast?_concat] at added
  rw [addEvent, addField, List.getLast?_concat] at kept
  obtain rfl := Option.some.inj added
  obtain rfl := Option.some.inj kept
  exact ⟨rfl, rfl, rfl⟩

theorem TypeSystem.handlers_defaultValue (system : TypeSystem) (type : TypeRef) :
    (system.defaultValue type).handlers = [] := by
  rw [defaultValue]
  split <;> rfl

section Accessors

variable {system : TypeSystem} {invocation : Invocation} {field : Field} {store later : HostStore}
  {current converted : HostValue} {written : Option HostValue}

/-- An accessor reads the field that it stands for. -/
theorem Invocation.exec_slot (owner : invocation.declaringType = field.owner)
    (stored : store.readField? field invocation.receiver = some current) :
    NativeRun.exec (invocation.slot system field.definition.name field.definition.isStatic) store =
      (.ok current, store) := by
  rw [HostStore.readField?] at stored
  rw [slot]
  split
  next isStatic =>
    rw [if_pos isStatic, ← owner] at stored
    rw [staticSlot, NativeRun.exec_get_bind, stored]
    rfl
  next onInstance =>
    rw [if_neg onInstance] at stored
    rw [receiverSlot, NativeRun.exec_get_bind, stored]
    rfl

/-- An accessor writes the field that it stands for, and goes on with the receiver as written. -/
theorem Invocation.exec_writeSlot (owner : invocation.declaringType = field.owner)
    (wrote : store.writeField? field invocation.receiver converted = some (written, later)) :
    NativeRun.exec (invocation.writeSlot system field.definition.name field.definition.isStatic converted) store =
      (.ok { invocation with receiver := written }, later) := by
  rw [HostStore.writeField?] at wrote
  rw [writeSlot]
  split
  next isStatic =>
    rw [if_pos isStatic] at wrote
    obtain ⟨rfl, rfl⟩ := Prod.mk.inj (Option.some.inj wrote)
    rw [← owner]
    rfl
  next onInstance =>
    rw [if_neg onInstance] at wrote
    rcases Option.bind_eq_some_iff.mp wrote with ⟨value, received, writing⟩
    rcases Option.bind_eq_some_iff.mp writing with ⟨⟨left, changed⟩, slot, same⟩
    obtain ⟨rfl, rfl⟩ := Prod.mk.inj (Option.some.inj same)
    rw [writeReceiverSlot, NativeRun.exec_get_bind, received, Option.bind_some, slot]
    rfl

/-- Changing the handlers of an event changes what is in its field. -/
theorem Invocation.exec_changeHandler {delegate : Delegate} {rest : List HostValue}
    {change : HostValue → Delegate → HostValue} (owner : invocation.declaringType = field.owner)
    (passed : invocation.arguments = .delegate delegate :: rest)
    (stored : store.readField? field invocation.receiver = some current)
    (wrote : store.writeField? field invocation.receiver (change current delegate) = some (written, later)) :
    NativeRun.exec
        (invocation.changeHandler system field.definition.name field.definition.isStatic change) store =
      (.ok ({ invocation with receiver := written }.complete .null), later) := by
  have first : invocation.argument 0 = pure (.delegate delegate) := by rw [argument, passed]; rfl
  rw [changeHandler, first, pure_bind]
  dsimp only
  rw [NativeRun.exec_bind, exec_slot owner stored]
  dsimp only
  rw [NativeRun.exec_bind, exec_writeSlot owner wrote]
  rfl

end Accessors

namespace HandlerRequest

variable {event : EventDef} {backing : FieldDef}

theorem accessor_body (worksOn : event.WorksOn backing) (request : HandlerRequest) (natives : List NativeBody)
    (system : TypeSystem) (invocation : Invocation) :
    (request.accessor event).body.run natives system invocation =
      invocation.changeHandler system backing.name backing.isStatic request.change := by
  cases request with
  | subscribe handle => rw [accessor, worksOn.add]; rfl
  | unsubscribe handle => rw [accessor, worksOn.remove]; rfl

end HandlerRequest

namespace Host

variable {host : Host} {world : World} {owner : TypeRef} {event : EventDef} {backing : FieldDef}
  {target : ScriptValue} {receiver : Option (HostValue × ProxyKey)} {current : HostValue}

theorem exec_accessor {delegate : Delegate} {written : Option HostValue} {store : HostStore}
    (worksOn : event.WorksOn backing)
    (stored : world.store.readField? ⟨owner, backing⟩ (receiver.map Prod.fst) = some current)
    (request : HandlerRequest)
    (wrote : world.store.writeField? ⟨owner, backing⟩ (receiver.map Prod.fst) (request.change current delegate) =
      some (written, store)) :
    exec (host.runAccessor owner (request.accessor event) receiver [.delegate delegate]) world =
      exec (do writeBack (receiver.map Prod.snd) written; return .null) { world with store := store } := by
  let invocation : Invocation := ⟨owner, receiver.map Prod.fst, [.delegate delegate], []⟩
  have changed : NativeRun.exec
      ((request.accessor event).body.run host.natives host.system invocation) world.store =
        (.ok ({ invocation with receiver := written }.complete .null), store) := by
    rw [request.accessor_body worksOn]
    exact @Invocation.exec_changeHandler _ _ ⟨owner, backing⟩ _ _ _ _ _ _ _ rfl rfl stored wrote
  have ran : exec (host.runNative (request.accessor event) invocation) world =
      (.ok ({ invocation with receiver := written }.complete .null), { world with store := store }) := by
    rw [NativeRun.exec] at changed
    rw [exec_runNative, changed]
  rw [runAccessor, exec_bind_of_ok ran]
  rfl

/--
The wrapper of an event writes the changed handlers to the field of the event, and writes a copy back. Nothing else
in the context changes.
-/
theorem exec_changeEvent (consistent : world.context.cache.Consistent) (worksOn : event.WorksOn backing)
    (receives : world.context.Receives host ⟨owner, backing⟩ target receiver)
    (stored : world.store.readField? ⟨owner, backing⟩ (receiver.map Prod.fst) = some current)
    (request : HandlerRequest) :
    ∃ type written store cache,
      let after : World := { world with store := store, context := { world.context with cache := cache } }
      exec (host.changeEvent owner event (target.asReceiver ++ request.arguments)) world = (.ok [], after) ∧
        world.store.Writes ⟨owner, backing⟩ (request.change current ⟨type, [request.function.target]⟩)
          (receiver.map Prod.fst) written store ∧
        cache.tag = world.context.cache.tag ∧ cache.Consistent ∧
        world.WritesBack after (receiver.map Prod.snd) written := by
  have received := exec_memberReceiver_of_receives receives ("access event " ++ event.name) request.arguments
  have passed (position : Nat) : argumentAt (target.asReceiver ++ request.arguments)
      ((if backing.isStatic then 0 else 1) + position) = argumentAt request.arguments position := by
    cases receives with
    | onInstance ofInstance =>
        rw [show backing.isStatic = false from ofInstance]
        simp [argumentAt, ScriptValue.asReceiver, Nat.add_comm]
    | onType id ofType =>
        rw [show backing.isStatic = true from ofType]
        simp [argumentAt, ScriptValue.asReceiver]
  have sign : handlerAccessor? event (argumentAt request.arguments 0) = some (request.accessor event) := by
    cases request <;> rfl
  have handler : argumentAt request.arguments 1 = .function request.function := by cases request <;> rfl
  let type := if (host.system.definition event.handlerType).isDelegate then event.handlerType else .delegate
  have converts : exec (host.toHost (.function request.function) event.handlerType) world =
      (.ok (.delegate ⟨type, [request.function.target]⟩), world) := by
    rw [exec_toHost]
    rfl
  rcases HostStore.exists_writes_of_readField? stored (request.change current ⟨type, [request.function.target]⟩) with
    ⟨written, store, wrote, writes⟩
  have tidy : ({ world with store := store } : World).context.cache.Consistent := consistent
  rcases exec_writeBack_cache (ε := HostException) tidy (receiver.map Prod.snd) written with
    ⟨cache, wroteBack, tag, consistentThen, returned⟩
  refine ⟨type, written, store, cache, ?_, writes, tag, consistentThen, returned⟩
  rw [changeEvent, worksOn.isStatic, exec_bind_of_ok received]
  dsimp only
  rw [← Nat.add_zero (if backing.isStatic = true then 0 else 1), passed 0, Nat.add_zero, passed 1, sign, handler]
  dsimp only
  rw [exec_bind_of_ok converts, exec_bind, exec_discard, exec_adapt, exec_accessor worksOn stored request wrote,
    exec_bind_of_ok wroteBack]
  rfl

end Host

/-- What a live proxy fits is up to its type alone. -/
theorem Context.fits_proxy_eq {before after : Context} {proxy : Proxy} (owned : before.cache.owns proxy = true)
    (ownedThen : after.cache.owns proxy = true) (system : TypeSystem) (type : TypeRef) :
    after.fits system (.proxy proxy) type = before.fits system (.proxy proxy) type := by
  simp only [fits, compatibility, objectCompatibility, proxyCompatibility, IdentityCache.isReleased, owned, ownedThen,
    Bool.not_true, Bool.and_false]

/-- A target has a field, with some value in it. -/
def World.Stores (host : Host) (field : Field) (target : ScriptValue) (value : HostValue) (world : World) : Prop :=
  ∃ receiver, world.context.Receives host field target receiver ∧
    world.store.readField? field (receiver.map Prod.fst) = some value

namespace World

variable {host : Host} {world after : World} {field : Field} {target : ScriptValue}
  {receiver : Option (HostValue × ProxyKey)} {converted : HostValue} {written : Option HostValue}

/-- A proxy that is written back to is live still, and so it fits what it fitted. -/
theorem WritesBack.receives (returned : world.WritesBack after (receiver.map Prod.snd) written)
    (tag : after.context.cache.tag = world.context.cache.tag)
    (receives : world.context.Receives host field target receiver) :
    ∃ again, after.context.Receives host field target again := by
  cases receives with
  | onType id ofType => exact ⟨none, .onType id ofType⟩
  | @onInstance proxy value ofInstance live fits =>
      have owned : world.context.cache.owns proxy = true := by rw [IdentityCache.owns, live]; rfl
      have ownedThen := returned.owns tag owned
      rcases Option.isSome_iff_exists.mp ownedThen with ⟨later, liveThen⟩
      exact ⟨_, .onInstance ofInstance liveThen ((Context.fits_proxy_eq owned ownedThen _ _).trans fits)⟩

/-- The target of a write has the field as written. -/
theorem WritesBack.stores (returned : world.WritesBack after (receiver.map Prod.snd) written)
    (tag : after.context.cache.tag = world.context.cache.tag)
    (receives : world.context.Receives host field target receiver)
    (writes : world.store.Writes field converted (receiver.map Prod.fst) written after.store) :
    after.Stores host field target converted := by
  rcases returned.receives tag receives with ⟨again, received⟩
  exact ⟨again, received, World.readField?_of_writes receives writes returned tag received fun _ => rfl⟩

end World

/-- A callable wraps an event of a target, and the field of the event holds some value. -/
structure World.Serves (host : Host) (owner : TypeRef) (event : EventDef) (backing : FieldDef)
    (wrapper : CallableHandle) (target : ScriptValue) (value : HostValue) (world : World) : Prop where
  consistent : world.context.cache.Consistent
  registered : Registered world.context.callables wrapper (.event owner event)
  stores : world.Stores host ⟨owner, backing⟩ target value

/-- Each call of the wrapper of an event succeeds, and changes the value in the field of the event. -/
theorem Host.exec_call_of_serves {host : Host} {world : World} {owner : TypeRef} {event : EventDef}
    {backing : FieldDef} {wrapper : CallableHandle} {target : ScriptValue} {current : HostValue}
    (worksOn : event.WorksOn backing) (serves : world.Serves host owner event backing wrapper target current)
    (request : HandlerRequest) :
    ∃ after type,
      exec (host.call (.function wrapper) (target.asReceiver ++ request.arguments)) world = (.ok [], after) ∧
        after.Serves host owner event backing wrapper target
          (request.change current ⟨type, [request.function.target]⟩) := by
  rcases serves with ⟨consistent, registered, receiver, receives, stored⟩
  rcases exec_changeEvent consistent worksOn receives stored request with
    ⟨type, written, store, cache, ran, writes, tag, consistentThen, returned⟩
  have called : exec (host.call (.function wrapper) (target.asReceiver ++ request.arguments)) world =
      exec (host.changeEvent owner event (target.asReceiver ++ request.arguments)) world :=
    exec_invoke_of_generated registered rfl _
  exact ⟨_, type, called.trans ran, consistentThen, registered, returned.stores tag receives writes⟩

namespace Realm

variable {realm : Realm} {place : Nat} {context : Context}

theorem host_act_perform (realm : Realm) (operation : Operation) :
    (realm.act (.perform place operation)).host = realm.host := by
  cases found : realm.contexts[place]? with
  | none => simp [act, perform?, found]
  | some context => rw [act_perform found]; rfl

/-- A script calls the wrapper of an event. -/
def ask (place : Nat) (wrapper : CallableHandle) (target : ScriptValue) (request : HandlerRequest) : Action :=
  .perform place (.call (.function wrapper) (target.asReceiver ++ request.arguments))

/-- A context of a realm serves an event. -/
def Serves (place : Nat) (owner : TypeRef) (event : EventDef) (backing : FieldDef) (wrapper : CallableHandle)
    (target : ScriptValue) (value : HostValue) (realm : Realm) : Prop :=
  ∃ context, realm.contexts[place]? = some context ∧
    (⟨realm.store, context, []⟩ : World).Serves realm.host owner event backing wrapper target value

/-- Asking once more succeeds, and leaves the changed value in the field. -/
theorem Serves.ask {owner : TypeRef} {event : EventDef} {backing : FieldDef} {wrapper : CallableHandle}
    {target : ScriptValue} {current : HostValue} (worksOn : event.WorksOn backing)
    (serves : realm.Serves place owner event backing wrapper target current) (request : HandlerRequest) :
    (realm.perform? place (.call (.function wrapper) (target.asReceiver ++ request.arguments))).map (·.1.result) =
        some (.ok (.values [])) ∧
      ∃ type, (realm.act (Realm.ask place wrapper target request)).Serves place owner event backing wrapper target
        (request.change current ⟨type, [request.function.target]⟩) := by
  rcases serves with ⟨context, present, serves⟩
  rcases Host.exec_call_of_serves worksOn serves request with ⟨after, type, called, served⟩
  have performed : exec (realm.host.perform (.call (.function wrapper) (target.asReceiver ++ request.arguments)))
      ⟨realm.store, context, []⟩ = (.ok (.values []), after) := by
    rw [Host.perform, Host.answerScript, exec_map, exec_adapt, called]
    rfl
  refine ⟨by rw [perform?_eq present, performed]; rfl, type, after.context, ?_, ?_⟩
  · rw [Realm.ask, act_perform present, performed]
    exact Array.getElem?_setIfInBounds_self_of_lt (Array.getElem?_eq_some_iff.mp present).1
  · rw [Realm.ask, host_act_perform, act_perform present, performed]
    exact ⟨served.consistent, served.registered, served.stores⟩

/-- After some requests, the field keeps the functions that the requests come to. -/
theorem Serves.askAll {owner : TypeRef} {event : EventDef} {backing : FieldDef} {wrapper : CallableHandle}
    {target : ScriptValue} {current : HostValue} (worksOn : event.WorksOn backing)
    (serves : realm.Serves place owner event backing wrapper target current) {handlers : List CallableHandle}
    (same : current.handlers = handlers.map CallableHandle.target) (requests : List HandlerRequest) :
    ∃ value, (realm.actAll (requests.map (Realm.ask place wrapper target))).Serves place owner event backing wrapper
        target value ∧
      value.handlers = (requests.foldl HandlerRequest.after handlers).map CallableHandle.target ∧
      (requests ≠ [] → value.Keeps ((requests.foldl HandlerRequest.after handlers).map CallableHandle.target)) := by
  induction requests using List.reverseRecOn with
  | nil => exact ⟨current, serves, same, fun impossible => absurd rfl impossible⟩
  | append_singleton requests request ih =>
      rcases ih with ⟨value, served, told, -⟩
      rcases (served.ask worksOn request).2 with ⟨type, servedThen⟩
      have keeps := request.keeps_change told type
      rw [List.map_append, List.map_singleton, actAll_append, actAll_cons, actAll_nil, List.foldl_append]
      exact ⟨_, servedThen, keeps.handlers_eq, fun _ => keeps⟩

/--
Subscribing to an event is exact. In every run in which a context has the wrapper of an event, and the field of the
event on some target has its default value, each call of the wrapper with the target succeeds. After each of any
number of calls the field is null if no function is to be called, and otherwise a delegate whose targets are just
the functions to be called in order: adding appends a function, and removing takes away its last occurrence. In
general, a delegate that is combined with what is in the field is removed again.
-/
theorem eventHandlers_exact (actions : List Action) (place : Nat) (context : Context)
    (present : (core.actAll actions).contexts[place]? = some context) (definition : TypeDef) (owner : TypeRef)
    (name : String) (handlerType : TypeRef) (isStatic : Bool) (event : EventDef) (backing : FieldDef)
    (wrapper : CallableHandle) (target : ScriptValue) :
    let realm := core.actAll actions
    let initial := realm.host.system.defaultValue handlerType
    let built := definition.addEvent name handlerType isStatic initial
    built.events.getLast? = some event → built.fields.getLast? = some backing →
    Registered context.callables wrapper (.event owner event) →
    (⟨realm.store, context, []⟩ : World).Stores realm.host ⟨owner, backing⟩ target initial →
    (∀ requests : List HandlerRequest,
      let again := realm.actAll (requests.map (ask place wrapper target))
      (∀ request : HandlerRequest,
        (again.perform? place (.call (.function wrapper) (target.asReceiver ++ request.arguments))).map (·.1.result) =
          some (.ok (.values []))) ∧
      (requests ≠ [] → ∃ last value,
        again.contexts[place]? = some last ∧
        (⟨again.store, last, []⟩ : World).Stores again.host ⟨owner, backing⟩ target value ∧
        value.Keeps ((requests.foldl HandlerRequest.after []).map CallableHandle.target))) ∧
    ∀ targets current (added : Delegate), current.Keeps targets →
      Delegate.remove (Delegate.combine current added) added = current := by
  intro realm initial built added kept registered stores
  have worksOn := TypeDef.worksOn_addEvent added kept
  have serves : realm.Serves place owner event backing wrapper target initial :=
    ⟨context, present, consistent_cache actions present, registered, stores⟩
  refine ⟨fun requests => ?_, fun targets current added keeps => Delegate.remove_combine_of_perm keeps (.refl _)⟩
  have nothing : initial.handlers = ([] : List CallableHandle).map CallableHandle.target :=
    realm.system.handlers_defaultValue handlerType
  rcases serves.askAll worksOn nothing requests with ⟨value, served, -, keeps⟩
  refine ⟨fun request => (served.ask worksOn request).1, fun some => ?_⟩
  rcases served with ⟨last, lastPresent, servesLast⟩
  exact ⟨last, value, lastPresent, servesLast.stores, keeps some⟩

def onChange : TypeDef := .ofDelegate "Game" "OnChange"

/-- A type of copied instances with an event. -/
def panel : TypeDef := (TypeDef.ofStruct "Game" "Panel").addEvent "Changed" (.declared 14) false .null

def changed : EventDef where
  name := "Changed"
  handlerType := .declared 14
  add :=
    { MethodDef.named "add_Changed" (.subscribe "Changed" false) with
      isSpecial := true
      parameters := [.plain "value" (.declared 14)] }
  remove :=
    { MethodDef.named "remove_Changed" (.unsubscribe "Changed" false) with
      isSpecial := true
      parameters := [.plain "value" (.declared 14)] }
  isStatic := false
  visibility := .visible

def panelDeclared : List Action := [.declare onChange, .declare panel, .openContext .standard]

/-- A new panel is handed to a script. -/
def panelHanded : List Action :=
  panelDeclared ++ [.perform 0 (.push (.copied ⟨.declared 15, .ofList [("Changed", .null)], []⟩))]

def panelProxy : Proxy := ⟨⟨4, 0⟩, .declared 15, ⟨1⟩⟩

/-- A script has the wrapper of the event of panels, and a panel without handlers. -/
def WrapsChanged (realm : Realm) (context : Context) : Prop :=
  (context.callables[0]?.bind fun callable =>
      match callable with
      | .event owner event => some (owner, event)
      | _ => none) = some (.declared 15, changed) ∧
    ((context.cache.resolve? panelProxy).bind fun value =>
      (realm.store.slot? value "Changed").map HostValue.isNull) = some true ∧
    context.fits realm.host.system (.proxy panelProxy) (.declared 15) = true

instance (realm : Realm) (context : Context) : Decidable (WrapsChanged realm context) :=
  inferInstanceAs (Decidable (_ ∧ _ ∧ _))

theorem WrapsChanged.registered {realm : Realm} {context : Context} (wraps : WrapsChanged realm context) :
    Registered context.callables ⟨0⟩ (.event (.declared 15) changed) := by
  rcases Option.bind_eq_some_iff.mp wraps.1 with ⟨callable, found, same⟩
  split at same
  next owner event =>
    obtain ⟨rfl, rfl⟩ := Prod.mk.inj (Option.some.inj same)
    exact found
  next => cases same

theorem WrapsChanged.stores {realm : Realm} {context : Context} (wraps : WrapsChanged realm context) :
    (⟨realm.store, context, []⟩ : World).Stores realm.host
      ⟨.declared 15, .backing "Changed" (.declared 14) false .null⟩ (.proxy panelProxy) .null := by
  rcases Option.bind_eq_some_iff.mp wraps.2.1 with ⟨value, live, held⟩
  rcases Option.map_eq_some_iff.mp held with ⟨current, slot, isNull⟩
  refine ⟨_, .onInstance rfl live wraps.2.2, ?_⟩
  cases current with
  | null => exact slot
  | _ => cases isNull

theorem defaultValue_onChange : (core.actAll panelHanded).host.system.defaultValue (.declared 14) = .null := by
  rw [panelHanded, actAll_append, actAll_cons, actAll_nil, system_act_perform]
  rfl

/-- A panel is a copy; after four calls it has two handlers, in the order in which they were added at first. -/
theorem eventHandlers_exact_panelHanded :
    let requests : List HandlerRequest :=
      [.subscribe ⟨7⟩, .subscribe ⟨9⟩, .subscribe ⟨7⟩, .unsubscribe ⟨7⟩]
    let again := (core.actAll panelHanded).actAll (requests.map (ask 0 ⟨0⟩ (.proxy panelProxy)))
    (∃ last value, again.contexts[0]? = some last ∧
      (⟨again.store, last, []⟩ : World).Stores again.host
        ⟨.declared 15, .backing "Changed" (.declared 14) false .null⟩ (.proxy panelProxy) value ∧
      value.Keeps [7, 9]) ∧
    Delegate.remove (Delegate.combine (.delegate ⟨.declared 14, [1, 2, 1]⟩) ⟨.declared 14, [2, 1, 2]⟩)
      ⟨.declared 14, [2, 1, 2]⟩ = .delegate ⟨.declared 14, [1, 2, 1]⟩ := by
  intro requests again
  have reached : (core.actAll panelHanded).contexts[0]?.any (WrapsChanged (core.actAll panelHanded)) := by
    decide +kernel
  have default := defaultValue_onChange
  rcases Option.any_eq_true _ _ |>.mp reached with ⟨context, present, checked⟩
  have wraps := of_decide_eq_true checked
  rcases eventHandlers_exact panelHanded 0 context present (.ofStruct "Game" "Panel") (.declared 15) "Changed"
    (.declared 14) false changed (.backing "Changed" (.declared 14) false .null) ⟨0⟩ (.proxy panelProxy) rfl
    (by rw [default]; rfl) wraps.registered (by rw [default]; exact wraps.stores) with ⟨exact, cancels⟩
  refine ⟨?_, cancels [1, 2, 1] _ _ (.delegate ⟨.declared 14, [1, 2, 1]⟩ (List.cons_ne_nil _ _))⟩
  exact (exact requests).2 (List.cons_ne_nil _ _)

end Realm

end ScriptBridge
