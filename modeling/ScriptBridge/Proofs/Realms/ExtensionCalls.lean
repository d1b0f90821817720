import ScriptBridge.Proofs.Realms.Reading
import ScriptBridge.Proofs.Realms.Tables
import ScriptBridge.Proofs.Steps.Parallel
import ScriptBridge.Proofs.Tables.Joined

/-!
# Two ways to call an extension method

An extension method is called as a member of the instance that it extends, or as a static
member of its container with that instance as the first argument. Where all extension
methods of a name are those of one container, both ways choose the same method, hand it the
same and come to the same results and the same host state: only the first use of either
slot makes a member that the other call does not need.
-/

namespace ScriptBridge

open Bridge

/-! ## Groups without receivers -/

/-- A call of the group hands all its arguments to the native code, and makes no instance. -/
structure OverloadGroup.PassesAll (group : OverloadGroup) : Prop where
  noConstruction : group.shape ≠ .construction
  noReceivers : ∀ candidate ∈ group.candidates, group.receiverCount candidate = 0

namespace OverloadGroup.Lends

variable {shared own : OverloadGroup} (lends : shared.Lends own)

include lends

theorem passesAll_shared : shared.PassesAll where
  noConstruction := by
    rw [lends.onType]
    exact CallShape.noConfusion
  noReceivers candidate _ := by
    rw [receiverCount, lends.onType]
    rfl

theorem passesAll : own.PassesAll where
  noConstruction := by
    rw [lends.onInstance]
    exact CallShape.noConfusion
  noReceivers candidate listed := by
    rcases lends.candidates with ⟨repeated, same, -⟩
    rw [same] at listed
    rcases List.mem_map.mp listed with ⟨lent, -, rfl⟩
    rw [receiverCount, Candidate.asExtension, Bool.not_true, Bool.and_false]
    rfl

end OverloadGroup.Lends

namespace Host

variable {host : Host} {world twin : World} {group lender : OverloadGroup}

/-- A method and what it is handed, where it works on no receiver. -/
def nativeCallOf (host : Host) (candidate : Candidate) (inputs : List ScriptValue) :
    Bridge ScriptError (Method × Invocation) := do
  let hostArguments ← host.hostArguments candidate.specialization candidate.method.definition.parameters inputs
  return (candidate.method, ⟨candidate.method.owner, none, hostArguments, candidate.specialization.arguments⟩)

/-- The native call that a call of a group comes to, where its methods work on no receiver. -/
def nativeCall (host : Host) (group : OverloadGroup) (arguments : List ScriptValue) :
    Bridge ScriptError (Method × Invocation) := do
  let candidate ← host.resolveOverload group arguments
  host.nativeCallOf candidate (Context.inputsFor group candidate arguments)

/-- Runs a native call and hands its results to the script. -/
def complete (host : Host) (call : Method × Invocation) : Bridge ScriptError (List ScriptValue) := do
  let completion ← ExceptT.adapt ScriptError.ofException (host.runNative call.1.definition call.2)
  (returnedValues call.1.definition completion).mapM fun value => Bridge.asScript (host.push value)

theorem receiverFor_of_passesAll (passes : group.PassesAll) {candidate : Candidate}
    (listed : candidate ∈ group.candidates) (arguments : List ScriptValue) :
    host.receiverFor group candidate arguments = pure (none, none) := by
  have noReceiver := passes.noReceivers candidate listed
  rw [OverloadGroup.receiverCount] at noReceiver
  cases shape : group.shape with
  | onType => rw [receiverFor, shape]
  | construction => exact absurd shape passes.noConstruction
  | onInstance =>
      have isExtension : candidate.isExtension = true := by
        rw [shape] at noReceiver
        simpa using noReceiver
      rw [receiverFor, shape]
      simp only [isExtension, if_true]

/-- A call of a group without receivers makes one native call and completes it. -/
theorem exec_callGroup_of_passesAll (passes : group.PassesAll) (arguments : List ScriptValue) (world : World) :
    exec (host.callGroup group arguments) world = exec (host.nativeCall group arguments >>= host.complete) world := by
  rw [callGroup, nativeCall, bind_assoc]
  cases run : exec (host.resolveOverload group arguments) world with
  | mk result after =>
      cases result with
      | error error => rw [exec_bind_of_error run, exec_bind_of_error run]
      | ok candidate =>
          rw [exec_bind_of_ok run, exec_bind_of_ok run, nativeCallOf, bind_assoc]
          simp only [receiverFor_of_passesAll passes (mem_of_resolveOverload run), pure_bind, complete, writeBack,
            if_neg passes.noConstruction]

theorem steady_nativeCallOf (candidate : Candidate) (inputs : List ScriptValue) :
    Steady host (host.nativeCallOf candidate inputs) :=
  (steady_hostArguments _ _ _).after fun _ => .pure rfl

theorem steady_complete (call : Method × Invocation) : Steady host (host.complete call) := by
  have runs : Steady host (ExceptT.adapt ScriptError.ofException (host.runNative call.1.definition call.2)) :=
    (steady_runNative call.1.definition call.2).adapt fun _ impossible => False.elim impossible
  exact runs.after fun completion => Steady.mapM _ fun value => steady_push value

/-- The failure of a call of a member of a type that none of its candidates matches. -/
def unmatched (host : Host) (type : TypeRef) (name : String) : ScriptError :=
  .noMatchingOverload (host.fullName type) name

end Host

/-! ## Calls that agree -/

/--
The calls come to the same in parallel worlds, or both miss for want of a matching candidate, unless one of them runs
out of room for callables.
-/
def CallsAgree (host : Host) {α : Type} (missed otherMissed : ScriptError) (run other : Except ScriptError α × World) :
    Prop :=
  RunsOut run ∨ RunsOut other ∨ run.2.Parallels host other.2 ∧
    (run.1 = other.1 ∨ run.1 = .error missed ∧ other.1 = .error otherMissed)

namespace CallsAgree

variable {host : Host} {missed otherMissed : ScriptError} {α β : Type} {world twin : World}

theorem of_endsParallel {run other : Except ScriptError α × World} (ends : EndsParallel host Eq run other) :
    CallsAgree host missed otherMissed run other := by
  rcases ends with out | out | ⟨worlds, results⟩
  · exact .inl out
  · exact .inr (.inl out)
  · refine .inr (.inr ⟨worlds, .inl ?_⟩)
    generalize run.1 = result at results ⊢
    generalize other.1 = otherResult at results ⊢
    cases results with
    | error error => rfl
    | ok same => rw [same]

theorem bind {action other : Bridge ScriptError α} {next otherNext : α → Bridge ScriptError β}
    (first : CallsAgree host missed otherMissed (exec action world) (exec other twin))
    (second : ∀ value after twinAfter, World.Parallels host after twinAfter →
      CallsAgree host missed otherMissed (exec (next value) after) (exec (otherNext value) twinAfter)) :
    CallsAgree host missed otherMissed (exec (action >>= next) world) (exec (other >>= otherNext) twin) := by
  rcases first with out | out | ⟨worlds, results⟩
  · exact .inl (out.bind next)
  · exact .inr (.inl (out.bind otherNext))
  · cases run : exec action world with
    | mk result after =>
        cases otherRun : exec other twin with
        | mk otherResult twinAfter =>
            rw [run, otherRun] at worlds results
            rcases results with same | ⟨rfl, rfl⟩
            · obtain rfl : result = otherResult := same
              cases result with
              | error error =>
                  rw [exec_bind_of_error run, exec_bind_of_error otherRun]
                  exact .inr (.inr ⟨worlds, .inl rfl⟩)
              | ok value =>
                  rw [exec_bind_of_ok run, exec_bind_of_ok otherRun]
                  exact second value after twinAfter worlds
            · rw [exec_bind_of_error run, exec_bind_of_error otherRun]
              exact .inr (.inr ⟨worlds, .inr ⟨rfl, rfl⟩⟩)

/-- A call that fails for want of no callable does not agree with one that succeeds. -/
theorem not_of_isOk {run other : Except ScriptError α × World} (fails : run.1.isOk = false)
    (room : run.2.context.callables.size < UInt32.size) (succeeds : other.1.isOk = true) :
    ¬CallsAgree host missed otherMissed run other := by
  have noError {error : ScriptError} (failed : other.1 = .error error) : False := by
    rw [failed] at succeeds
    cases succeeds
  rintro (⟨-, full⟩ | ⟨⟨error, failed, -⟩, -⟩ | ⟨-, same | ⟨-, failed⟩⟩)
  · exact Nat.not_le_of_lt room full
  · exact noError failed
  · rw [same, succeeds] at fails
    cases fails
  · exact noError failed

end CallsAgree

namespace Host

variable {host : Host} {world twin : World} {group lender : OverloadGroup}

/-- In parallel worlds, a group chooses what the group that lends it its candidates chooses, and hands on the same. -/
theorem callsAgree_nativeCall (lends : lender.Lends group) (arguments : List ScriptValue)
    (worlds : world.Parallels host twin) :
    CallsAgree host (host.unmatched group.owner group.name) (host.unmatched lender.owner lender.name)
      (exec (host.nativeCall group arguments) world) (exec (host.nativeCall lender arguments) twin) := by
  have lent := worlds.context.choose?_eq lender arguments
  have chosen := lends.choose?_eq host.system world.context arguments
  rw [nativeCall, nativeCall, resolveOverload, resolveOverload, bind_assoc, bind_assoc,
    exec_bind_of_ok (exec_context world), exec_bind_of_ok (exec_context twin)]
  simp only [lent, chosen]
  cases found : world.context.choose? host.system lender arguments with
  | none => exact .inr (.inr ⟨⟨worlds.store, worlds.reports, { worlds.context with }⟩, .inr ⟨rfl, rfl⟩⟩)
  | some candidate =>
      have all : Context.inputsFor group candidate.asExtension arguments = arguments := by
        rw [Context.inputsFor, OverloadGroup.receiverCount, Candidate.asExtension, Bool.not_true, Bool.and_false]
        rfl
      have allLent : Context.inputsFor lender candidate arguments = arguments := by
        rw [Context.inputsFor, OverloadGroup.receiverCount, lends.onType]
        rfl
      simp only [Option.map_some, bind_assoc, pure_bind, all, allLent]
      have keeps : Steady host (do
          Bridge.count (·.countResolution true)
          host.nativeCallOf candidate arguments) :=
        (Steady.count _).after fun _ => steady_nativeCallOf candidate arguments
      exact .of_endsParallel (keeps world twin worlds)

end Host

/-! ## After the first use of either slot -/

theorem Context.SameBut.classTable_eq {host : Host} {place : MemberTable × String} {before after : Context}
    (same : before.SameBut host place after) (type : TypeRef) :
    (after.binding? type).map (·.classTable) = (before.binding? type).map (·.classTable) :=
  same.map_binding?_eq type _ fun _ _ => rfl

namespace Host

variable {host : Host} {world : World}

/-- Making a member leaves the reports, the settings and the namespaces of the context as they were. -/
theorem exec_makeMember_aside (slot : MemberSlot) (world : World) :
    let after := (exec (host.makeMember slot) world).2
    after.reports = world.reports ∧ after.context.config = world.context.config ∧
      after.context.namespaces = world.context.namespaces := by
  have extended : (host.withExtensions world).reports = world.reports ∧
      (host.withExtensions world).context.config = world.context.config ∧
      (host.withExtensions world).context.namespaces = world.context.namespaces := by
    rcases host.withExtensions_eq world with same | ⟨-, same⟩ <;> rw [same] <;> exact ⟨rfl, rfl, rfl⟩
  cases slot with
  | bound handle => exact ⟨rfl, rfl, rfl⟩
  | unbound handle =>
      rw [makeMember, exec_bind_of_ok (exec_context world)]
      split
      next member found =>
        rw [exec_discard]
        have resolved := host.resolved_resolveMember member world
        generalize exec (host.resolveMember member) world = run at resolved
        cases resolved with
        | failed same =>
            rcases same with rfl | rfl
            · exact ⟨rfl, rfl, rfl⟩
            · exact extended
        | present => exact ⟨rfl, rfl, rfl⟩
        | made bound waits found registered =>
            rw [settled, registered.rest, Context.modifyBinding_eq]
            exact extended
      next => exact ⟨rfl, rfl, rfl⟩

/-- Whichever slot is used first, the worlds are parallel. -/
theorem endsParallel_makeMember {slot other : MemberSlot} {place otherPlace : MemberTable × String}
    (made : host.Made place world (exec (host.makeMember slot) world))
    (otherMade : host.Made otherPlace world (exec (host.makeMember other) world)) :
    EndsParallel host Eq (exec (host.makeMember slot) world) (exec (host.makeMember other) world) := by
  have runsOut (noRoom : UInt32.size ≤ world.context.callables.size) : RunsOut
      ((.error (.ofBindError .callableLimit), host.withExtensions world) : Except ScriptError Unit × World) := by
    refine ⟨⟨_, rfl, rfl⟩, ?_⟩
    rcases host.withExtensions_eq world with same | ⟨-, same⟩ <;> rw [same] <;> exact noRoom
  rcases host.exec_makeMember_aside slot world with ⟨reports, config, namespaces⟩
  rcases host.exec_makeMember_aside other world with ⟨otherReports, otherConfig, otherNamespaces⟩
  generalize exec (host.makeMember slot) world = run at made reports config namespaces ⊢
  generalize exec (host.makeMember other) world = otherRun at otherMade otherReports otherConfig otherNamespaces ⊢
  cases made with
  | full noRoom => exact .inl (runsOut noRoom)
  | made store cache same =>
      cases otherMade with
      | full noRoom => exact .inr (.inl (runsOut noRoom))
      | made otherStore otherCache otherSame =>
          refine .inr (.inr ⟨⟨otherStore.trans store.symm, otherReports.trans reports.symm, ?_⟩, .ok rfl⟩)
          exact {
            config := otherConfig.trans config.symm
            cache := otherCache.trans cache.symm
            namespaces := otherNamespaces.trans namespaces.symm
            heap := by
              rw [same.heap, otherSame.heap]
              exact .refl .same _
            tables := fun type => (otherSame.classTable_eq type).trans (same.classTable_eq type).symm
            extensions := otherSame.extensions.trans same.extensions.symm }

/-- What a member function is called with: an instance is passed to it first. -/
def passedTo (target : ScriptValue) (arguments : List ScriptValue) : List ScriptValue :=
  match target with
  | .proxy _ => target :: arguments
  | _ => arguments

/-- Calling a member that is offered calls the function of its slot. -/
theorem exec_invokeMember_of_offers {begun : World} (wired : begun.context.Wired host.system) {target : ScriptValue}
    (ready : exec (host.ready target) world = (.ok (), begun)) {name : String} {owner : TypeRef} {slot : MemberSlot}
    (offers : begun.context.Offers host name target owner slot) (arguments : List ScriptValue) :
    exec (host.invokeMember target name arguments) world =
      exec (host.invoke slot.handle (passedTo target arguments)) begun := by
  have read := exec_index_of_offers wired ready offers
  rw [index] at read
  rw [invokeMember, invokeMemberBy, exec_bind_of_ok read]
  cases offers <;> rfl

/-- Where a member that is offered is of a group without receivers, its call makes it and goes on as one native call. -/
theorem exec_invokeMember_of_passesAll {begun : World} (wired : begun.context.Wired host.system) {target : ScriptValue}
    (ready : exec (host.ready target) world = (.ok (), begun)) {name : String} {owner : TypeRef} {slot : MemberSlot}
    (offers : begun.context.Offers host name target owner slot) {group : OverloadGroup}
    (leads : slot.LeadsTo host begun.context owner (target.memberTable, name) (.method group))
    (passes : group.PassesAll) (arguments : List ScriptValue) :
    host.Made (target.memberTable, name) begun (exec (host.makeMember slot) begun) ∧
      exec (host.invokeMember target name arguments) world =
        exec ((do host.makeMember slot; host.nativeCall group (passedTo target arguments)) >>= host.complete) begun := by
  rcases offers.slot? with ⟨binding, bound, present⟩
  rcases exec_invoke_slot bound present leads (passedTo target arguments) with ⟨made, called⟩
  refine ⟨made, (exec_invokeMember_of_offers wired ready offers arguments).trans (called.trans ?_)⟩
  rw [bind_assoc, exec_bind, exec_bind (host.makeMember slot)]
  cases exec (host.makeMember slot) begun with
  | mk result after =>
      cases result with
      | error error => rfl
      | ok _ => exact exec_callGroup_of_passesAll passes _ after

theorem collects_ready {begun : World} {target : ScriptValue} (holds : world.context.Collects host.system)
    (run : exec (host.ready target) world = (.ok (), begun)) : begun.context.Collects host.system :=
  (keptBy_ready (respects_collecting host).toRespectsPreparation target).holds_of_ok holds run

end Host

namespace Realm

variable {realm : Realm} {place : Nat} {context : Context}

/-- In every run, the slots of every context are of walks that knew its extension methods. -/
theorem collects_actAll (actions : List Action) (place : Nat) (context : Context)
    (present : (core.actAll actions).contexts[place]? = some context) :
    context.Collects (core.actAll actions).system :=
  @forall_contexts_actAll (fun realm context => context.Collects realm.system)
    (fun _ config => Context.Collects.fresh _ config _)
    (fun realm action _ holds => holds.change (precedes_act realm action) rfl rfl (.refl _))
    (fun realm context operation holds =>
      @Host.collects_perform realm.host ⟨realm.store, context, []⟩ operation holds)
    actions place context present

/--
The two ways to call an extension method agree. In every run where methods take types that were declared before their
own, and for every live instance in a context that merges extension methods: say that the extension methods of a type by
some name are all those of one container by that name, that the type has no such method of its own and the container no
such static event. If both types are bound and offer the name, one to the instance and one from the table of the
container, and no event has taken the slot of the type, then calling the member of the instance and calling the static
member with the instance before the same arguments come to the same native call, of the same method with the same host
arguments; they give the same results or the same error and leave the same host state and the same proxies; or both
miss for want of a matching candidate. This is so unless one of them runs out of room for callables. The static call
starts where the instance is ready to be read, with its type bound.
-/
theorem extensionCalls_agree (actions : List Action) (earlier : (core.actAll actions).host.system.TakesEarlier)
    (place : Nat) (context : Context) (present : (core.actAll actions).contexts[place]? = some context) (proxy : Proxy)
    (begun : World)
    (ready : exec ((core.actAll actions).host.ready (.proxy proxy)) ⟨(core.actAll actions).store, context, []⟩ =
      (.ok (), begun))
    (merges : begun.context.config.mergesExtensions = true) (extensions : ExtensionMap)
    (collected : begun.context.extensions = some extensions) (type container : TypeRef) (name : String)
    (whole : extensions.FromContainer (core.actAll actions).host.system type container name) (own shared : MemberSlot)
    (offers : begun.context.Offers (core.actAll actions).host name (.proxy proxy) type own)
    (noEvent : ∀ callable, begun.context.callable? own.handle = some callable → callable.servesEvent = false)
    (id : TableId) (offersShared : begun.context.Offers (core.actAll actions).host name (.table id) container shared)
    (arguments : List ScriptValue) :
    let host := (core.actAll actions).host
    ∃ group lender : OverloadGroup,
      own.LeadsTo host begun.context type (.methods, name) (.method group) ∧
      shared.LeadsTo host begun.context container (.classMethods, name) (.method lender) ∧
      let extended := do host.makeMember own; host.nativeCall group (.proxy proxy :: arguments)
      let static := do host.makeMember shared; host.nativeCall lender (.proxy proxy :: arguments)
      let called := exec (host.invokeMember (.proxy proxy) name arguments) ⟨(core.actAll actions).store, context, []⟩
      let calledStatic := exec (host.invokeMember (.table id) name (.proxy proxy :: arguments)) begun
      called = exec (extended >>= host.complete) begun ∧ calledStatic = exec (static >>= host.complete) begun ∧
      CallsAgree host (host.unmatched type name) (host.unmatched container name) (exec extended begun)
        (exec static begun) ∧
      CallsAgree host (host.unmatched type name) (host.unmatched container name) called calledStatic := by
  intro host
  have wired : begun.context.Wired host.system :=
    @Host.wired_ready host ⟨_, context, []⟩ begun (wired_actAll actions place context present) _ ready
  have holds : begun.context.Collects host.system :=
    @Host.collects_ready host ⟨_, context, []⟩ begun _ (collects_actAll actions place context present) ready
  have knows : host.extensionsIn begun.context = some extensions := by
    rw [Host.extensionsIn, if_pos merges, collected]
    rfl
  have foundIn {target : ScriptValue} {owner : TypeRef} {slot : MemberSlot}
      (offers : begun.context.Offers host name target owner slot) :
      slot.Found host.system begun.context.callables begun.context.extensions owner (target.memberTable, name) := by
    rcases offers.slot? with ⟨binding, bound, found⟩
    exact holds.slots owner binding bound _ (FinMap.mem_entries_of_get? found)
  rcases whole.leadsTo earlier holds collected knows (foundIn offers) noEvent (foundIn offersShared) with
    ⟨group, lender, lends, ⟨rfl, named⟩, ⟨rfl, namedLender⟩, leads, leadsShared⟩
  have readyStatic : exec (host.ready (.table id)) begun = (.ok (), begun) := rfl
  rcases Host.exec_invokeMember_of_passesAll wired ready offers leads lends.passesAll arguments with ⟨made, run⟩
  rcases Host.exec_invokeMember_of_passesAll wired readyStatic offersShared leadsShared lends.passesAll_shared
    (.proxy proxy :: arguments) with ⟨madeShared, runStatic⟩
  have native : CallsAgree host (host.unmatched group.owner name) (host.unmatched lender.owner name)
      (exec (do host.makeMember own; host.nativeCall group (.proxy proxy :: arguments)) begun)
      (exec (do host.makeMember shared; host.nativeCall lender (.proxy proxy :: arguments)) begun) := by
    refine .bind (.of_endsParallel (Host.endsParallel_makeMember made madeShared)) fun _ after twin worlds => ?_
    have agree := Host.callsAgree_nativeCall lends (.proxy proxy :: arguments) worlds
    rwa [named, namedLender] at agree
  have whole : CallsAgree host (host.unmatched group.owner name) (host.unmatched lender.owner name)
      (exec (host.invokeMember (.proxy proxy) name arguments) ⟨(core.actAll actions).store, context, []⟩)
      (exec (host.invokeMember (.table id) name (.proxy proxy :: arguments)) begun) := by
    rw [run, runStatic]
    exact native.bind fun call after twin worlds => .of_endsParallel (Host.steady_complete call after twin worlds)
  exact ⟨group, lender, leads, leadsShared, run, runStatic, native, whole⟩

/--
The type has extension methods by the name, which are those of the container; the instance is live and its type derives
from the type, with no nearer bound type that takes the name; and the table is that of the container, which has nothing
else by the name.
-/
structure HasExtension (host : Host) (context : Context) (type container : TypeRef) (name : String) (proxy : Proxy)
    (id : TableId) : Prop where
  access : context.config.access = .visibleOnly
  merges : context.config.mergesExtensions = true
  extensions : ∃ extensions, context.extensions = some extensions ∧
    extensions.FromContainer host.system type container name ∧ extensions.methodsBy type name ≠ []
  live : context.cache.owns proxy = true
  derives : ∃ passed rest, host.system.lineage proxy.type = passed ++ type :: rest ∧
    ∀ nearer ∈ passed, ∀ other, context.binding? nearer = some other → other.PassesOver host context nearer name
  table : (context.binding? container).map (·.classTable) = some id
  vacant : context.heap.get id (.string name) = .nil
  alone : (∀ field ∈ (host.definition container).fields, field.name ≠ name) ∧
    (∀ property ∈ (host.definition container).properties, property.name ≠ name) ∧
    ∀ event ∈ (host.definition container).events, event.name ≠ name

def vessel : TypeDef := TypeDef.ofClass "Game" "Vessel"

def tanker : TypeDef := { TypeDef.ofClass "Game" "Tanker" with base := some (.declared 14) }

/-- A method that describes vessels. -/
def vesselExtensions : TypeDef :=
  { (TypeDef.ofClass "Game" "VesselExtensions").addMethods
      [{ MethodDef.named "Describe" (.native 0) with
          isStatic := true
          isExtension := true
          parameters := [.plain "vessel" (.declared 14)]
          returns := some (.host .string) }] with
    isExtensionContainer := true }

/-- A tanker is handed to a script, and the container of the method is bound. -/
def tankerHanded (vessel : TypeDef) (config : Config) : List Action :=
  [.declare vessel, .declare tanker, .declare vesselExtensions,
    .addNative fun _ invocation => pure (invocation.complete (.string "a vessel")), .register (.declared 16),
    .make (.newObject (.declared 15)), .openContext config, .perform 0 (.push (.object ⟨0⟩)),
    .perform 0 (.bind (.declared 16))]

def tankerProxy : Proxy := ⟨⟨4, 0⟩, .declared 15, ⟨1⟩⟩

/-- The method extends vessels, and tankers have nothing by its name. -/
def ExtendsTanker (realm : Realm) (context : Context) : Prop :=
  realm.host.system.TakesEarlier ∧ context.config.access = .visibleOnly ∧ context.config.mergesExtensions = true ∧
    (context.extensions.any fun extensions =>
      decide (extensions.FromContainer realm.host.system (.declared 14) (.declared 16) "Describe") &&
        !(extensions.methodsBy (.declared 14) "Describe").isEmpty) = true ∧
    context.cache.owns tankerProxy = true ∧
    realm.host.system.lineage (.declared 15) = [.declared 15, .declared 14, .object] ∧
    ((context.binding? (.declared 15)).all fun binding =>
      (binding.slot? .methods "Describe").isNone && (binding.slot? .getters "Describe").isNone &&
        binding.itemGetter.isNone) = true ∧
    (context.binding? (.declared 16)).map (·.classTable) = some ⟨7⟩ ∧
    context.heap.get ⟨7⟩ (.string "Describe") = .nil ∧
    (realm.host.definition (.declared 16)).fields = [] ∧ (realm.host.definition (.declared 16)).properties = [] ∧
    (realm.host.definition (.declared 16)).events = []

instance (realm : Realm) (context : Context) : Decidable (ExtendsTanker realm context) :=
  inferInstanceAs (Decidable (_ ∧ _ ∧ _ ∧ _ ∧ _ ∧ _ ∧ _ ∧ _ ∧ _ ∧ _ ∧ _ ∧ _))

/-- Vessels and the container have slots for the method. -/
def DescribesTanker (realm : Realm) (context : Context) (own shared : MemberSlot) : Prop :=
  context.isBound (.declared 15) = true ∧ context.heap.kind? ⟨7⟩ = some (.type (.declared 16)) ∧
    context.lookupChain realm.host.system (.declared 15) = [.declared 15, .declared 14, .object] ∧
    (context.binding? (.declared 14)).bind (·.slot? .methods "Describe") = some own ∧
    (context.binding? (.declared 16)).bind (·.slot? .classMethods "Describe") = some shared

instance (realm : Realm) (context : Context) (own shared : MemberSlot) :
    Decidable (DescribesTanker realm context own shared) :=
  inferInstanceAs (Decidable (_ ∧ _ ∧ _ ∧ _ ∧ _))

theorem ExtendsTanker.passesOver (extends_ : ExtendsTanker realm context) {other : TypeBinding}
    (bound : context.binding? (.declared 15) = some other) :
    other.PassesOver realm.host context (.declared 15) "Describe" := by
  rcases extends_ with ⟨-, -, -, -, -, -, none, -⟩
  simp only [bound, Option.all_some, Bool.and_eq_true, Option.isNone_iff_eq_none] at none
  rcases none with ⟨⟨noMethod, noGetter⟩, noItems⟩
  refine ⟨noMethod, noGetter, Bool.noConfusion, fun getter given => ?_⟩
  rw [noItems] at given
  cases given

theorem ExtendsTanker.hasExtension (extends_ : ExtendsTanker realm context) :
    HasExtension realm.host context (.declared 14) (.declared 16) "Describe" tankerProxy ⟨7⟩ := by
  have passes {other : TypeBinding} (bound : context.binding? (.declared 15) = some other) := extends_.passesOver bound
  rcases extends_ with ⟨-, access, merges, joined, live, lineage, -, table, vacant, noField, noProperty, noEvent⟩
  rcases (Option.any_eq_true _ _).mp joined with ⟨extensions, collected, holds⟩
  rcases Bool.and_eq_true_iff.mp holds with ⟨whole, some⟩
  refine ⟨access, merges, ⟨extensions, collected, of_decide_eq_true whole, ?_⟩, live,
    ⟨[.declared 15], [.object], lineage, fun nearer listed other bound => ?_⟩, table, vacant, ?_⟩
  · intro none
    rw [none] at some
    cases some
  · obtain rfl := List.mem_singleton.mp listed
    exact passes bound
  · simp [noField, noProperty, noEvent]

theorem DescribesTanker.offers {own shared : MemberSlot} (describes : DescribesTanker realm context own shared)
    (extends_ : ExtendsTanker realm context) :
    context.Offers realm.host "Describe" (.proxy tankerProxy) (.declared 14) own ∧
      context.Offers realm.host "Describe" (.table ⟨7⟩) (.declared 16) shared := by
  rcases describes with ⟨isBound, stands, chain, slot, slotShared⟩
  have has := extends_.hasExtension
  rcases Option.bind_eq_some_iff.mp slot with ⟨binding, bound, found⟩
  have along : context.lookupChain realm.host.system tankerProxy.type = [.declared 15] ++ .declared 14 :: [.object] := chain
  refine ⟨.onInstance has.live isBound along (fun nearer listed other bound => ?_) bound found,
    Context.offers_of_own stands has.vacant slotShared⟩
  obtain rfl := List.mem_singleton.mp listed
  exact extends_.passesOver bound

/-- Both ways to describe a tanker agree. -/
theorem extensionCalls_agree_tanker :
    let realm := core.actAll (tankerHanded vessel .standard)
    ∃ context, realm.contexts[0]? = some context ∧
      CallsAgree realm.host (realm.host.unmatched (.declared 14) "Describe")
        (realm.host.unmatched (.declared 16) "Describe")
        (exec (realm.host.invokeMember (.proxy tankerProxy) "Describe" []) ⟨realm.store, context, []⟩)
        (exec (realm.host.invokeMember (.table ⟨7⟩) "Describe" [.proxy tankerProxy]) ⟨realm.store, context, []⟩) := by
  intro realm
  have reached : realm.contexts[0]?.any fun context =>
      decide (ExtendsTanker realm context) && decide (DescribesTanker realm context (.bound ⟨0⟩) (.bound ⟨1⟩)) &&
        (context.callable? ⟨0⟩).all fun callable => !callable.servesEvent := by
    decide +kernel
  rcases (Option.any_eq_true _ _).mp reached with ⟨context, present, checked⟩
  simp only [Bool.and_eq_true, decide_eq_true_eq] at checked
  rcases checked with ⟨⟨extends_, describes⟩, ofMethods⟩
  have noEvent (callable : Callable) (registered : context.callable? ⟨0⟩ = some callable) :
      callable.servesEvent = false := by
    rwa [registered, Option.all_some, Bool.not_eq_true'] at ofMethods
  have has := extends_.hasExtension
  rcases describes.offers extends_ with ⟨offers, offersShared⟩
  rcases has.extensions with ⟨extensions, collected, whole, -⟩
  rcases extensionCalls_agree (tankerHanded vessel .standard) extends_.1 0 context present tankerProxy _
    (Host.exec_ready_of_offers offers) has.merges extensions collected (.declared 14) (.declared 16) "Describe" whole
    (.bound ⟨0⟩) (.bound ⟨1⟩) offers noEvent ⟨7⟩ offersShared [] with ⟨group, lender, -, -, -, -, -, agree⟩
  exact ⟨context, present, agree⟩

/-- The script can describe a tanker through the container, but not as a member of the tanker. -/
def DescribesOneWay (realm : Realm) (context : Context) : Prop :=
  let called := exec (realm.host.invokeMember (.proxy tankerProxy) "Describe" []) ⟨realm.store, context, []⟩
  called.1.isOk = false ∧ called.2.context.callables.size < UInt32.size ∧
    (exec (realm.host.invokeMember (.table ⟨7⟩) "Describe" [.proxy tankerProxy])
      ⟨realm.store, context, []⟩).1.isOk = true

instance (realm : Realm) (context : Context) : Decidable (DescribesOneWay realm context) :=
  inferInstanceAs (Decidable (_ ∧ _ ∧ _))

/-- The binding of vessels is dropped. -/
def vesselsUnbound : List Action := tankerHanded vessel .standard ++ [.perform 0 (.unbind (.declared 14))]

/-- Vessels have an event by the name of the method, and it is made first. -/
def eventMade : List Action :=
  tankerHanded (vessel.addEvent "Describe" .delegate false .null) Config.standard.onDemand ++
    [.perform 0 (.resolveMember ⟨.declared 14, .event, "Describe", false, .visibleOnly⟩)]

/--
The two ways need not agree: the members of a type that is not bound any more are passed over, and an event of the type
can take the slot of the method.
-/
theorem not_forall_extensionCalls_agree :
    (¬∀ (actions : List Action) (place : Nat) (context : Context) (type container : TypeRef) (name : String)
        (proxy : Proxy) (id : TableId) (arguments : List ScriptValue),
      let realm := core.actAll actions
      realm.host.system.TakesEarlier → realm.contexts[place]? = some context →
      HasExtension realm.host context type container name proxy id →
      CallsAgree realm.host (realm.host.unmatched type name) (realm.host.unmatched container name)
        (exec (realm.host.invokeMember (.proxy proxy) name arguments) ⟨realm.store, context, []⟩)
        (exec (realm.host.invokeMember (.table id) name (.proxy proxy :: arguments)) ⟨realm.store, context, []⟩)) ∧
    ¬∀ (actions : List Action) (place : Nat) (context : Context) (type container : TypeRef) (name : String)
        (proxy : Proxy) (id : TableId) (own shared : MemberSlot) (arguments : List ScriptValue),
      let realm := core.actAll actions
      realm.host.system.TakesEarlier → realm.contexts[place]? = some context →
      HasExtension realm.host context type container name proxy id →
      context.Offers realm.host name (.proxy proxy) type own →
      context.Offers realm.host name (.table id) container shared →
      CallsAgree realm.host (realm.host.unmatched type name) (realm.host.unmatched container name)
        (exec (realm.host.invokeMember (.proxy proxy) name arguments) ⟨realm.store, context, []⟩)
        (exec (realm.host.invokeMember (.table id) name (.proxy proxy :: arguments)) ⟨realm.store, context, []⟩) := by
  constructor
  · intro claim
    let realm := core.actAll vesselsUnbound
    have reached : realm.contexts[0]?.any fun context =>
        decide (ExtendsTanker realm context) && decide (DescribesOneWay realm context) := by
      decide +kernel
    rcases (Option.any_eq_true _ _).mp reached with ⟨context, present, checked⟩
    simp only [Bool.and_eq_true, decide_eq_true_eq] at checked
    rcases checked with ⟨extends_, fails, room, succeeds⟩
    exact CallsAgree.not_of_isOk fails room succeeds (claim vesselsUnbound 0 context (.declared 14) (.declared 16)
      "Describe" tankerProxy ⟨7⟩ [] extends_.1 present extends_.hasExtension)
  · intro claim
    let realm := core.actAll eventMade
    have reached : realm.contexts[0]?.any fun context => decide (ExtendsTanker realm context) &&
        decide (DescribesTanker realm context (.bound ⟨3⟩) (.unbound ⟨2⟩)) && decide (DescribesOneWay realm context) := by
      decide +kernel
    rcases (Option.any_eq_true _ _).mp reached with ⟨context, present, checked⟩
    simp only [Bool.and_eq_true, decide_eq_true_eq] at checked
    rcases checked with ⟨⟨extends_, describes⟩, fails, room, succeeds⟩
    rcases describes.offers extends_ with ⟨offers, offersShared⟩
    exact CallsAgree.not_of_isOk fails room succeeds (claim eventMade 0 context (.declared 14) (.declared 16) "Describe"
      tankerProxy ⟨7⟩ (.bound ⟨3⟩) (.unbound ⟨2⟩) [] extends_.1 present extends_.hasExtension offers offersShared)

end Realm

end ScriptBridge
