import ScriptBridge.Proofs.Conversion.Selection
import ScriptBridge.Proofs.Natives.Receivers

/-!
# Legitimate calls of native code

Every function that runs native code runs alike with all runners that do with
legitimate calls what the host does with them. Hence all calls that operations make
are legitimate.
-/

namespace ScriptBridge

namespace Host

open Bridge

variable {host : Host} {made : Proxy → Prop} {start world after : World} {runner : NativeRunner}

/-- Converting a value changes nothing. -/
theorem sameRun_converted {invariant : Invariant} {α : Type} (value : ScriptValue) (type : TypeRef)
    {next other : HostValue → Bridge ScriptError α} (holds : invariant.holds world)
    (continues : ∀ converted, invariant.SameRun (exec (next converted) world) (exec (other converted) world)) :
    invariant.SameRun (exec (host.toHost value type >>= next) world)
      (exec (host.toHost value type >>= other) world) := by
  rw [exec_bind, exec_bind, exec_toHost]
  cases world.context.toHost host.system value type with
  | error error => exact .refl (.inl holds)
  | ok converted => exact continues converted

/-- What follows an operation that changes nothing runs in the same world. -/
theorem sameRun_found {invariant : Invariant} {α β : Type} {find : Bridge ScriptError α}
    {next other : α → Bridge ScriptError β} (unchanged : (exec find world).2 = world)
    (holds : invariant.holds world)
    (continues : ∀ value, exec find world = (.ok value, world) →
      invariant.SameRun (exec (next value) world) (exec (other value) world)) :
    invariant.SameRun (exec (find >>= next) world) (exec (find >>= other) world) := by
  refine .after (.inl (by rw [unchanged]; exact holds)) fun value after run _ => ?_
  rw [run] at unchanged
  rcases unchanged with rfl
  exact continues value run

variable (grounded : host.Grounded made start)
  (agrees : host.RunsAlike (NativeCall.Legitimate host.system made) runner)

namespace Grounded

include grounded

/-- The code of a candidate gets what the group gives it. -/
theorem receives_of_receiverFor (holds : (host.legality start).holds world) {group : OverloadGroup}
    {candidate : Candidate} {arguments : List ScriptValue} {receiver : Option HostValue} {key : Option ProxyKey}
    (run : exec (host.receiverFor group candidate arguments) world = (.ok (receiver, key), after)) :
    (group.subject candidate).Receives host.system made after arguments receiver := by
  rw [receiverFor] at run
  rw [OverloadGroup.subject]
  cases shape : group.shape with
  | onInstance =>
      rw [shape] at run
      dsimp only at run ⊢
      split at run
      next isExtension =>
        rcases Prod.mk.inj run with ⟨result, rfl⟩
        rcases Prod.mk.inj (Except.ok.inj result) with ⟨rfl, -⟩
        rw [if_pos isExtension]
        rfl
      next onInstance =>
        rcases exec_bind_eq_ok run with ⟨found, middle, looked, rest⟩
        rcases Prod.mk.inj rest with ⟨result, rfl⟩
        rcases Prod.mk.inj (Except.ok.inj result) with ⟨rfl, -⟩
        rcases finds_of_methodReceiver looked with ⟨rfl, proxy, passed, resolved, -, fits⟩
        rw [if_neg onInstance]
        exact ⟨proxy, found.1, passed, rfl, grounded.lends holds resolved fits⟩
  | construction =>
      rw [shape] at run
      dsimp only at run ⊢
      rcases exec_bind_eq_ok run with ⟨value, middle, made, rest⟩
      rcases Prod.mk.inj rest with ⟨result, rfl⟩
      rcases Prod.mk.inj (Except.ok.inj result) with ⟨rfl, -⟩
      refine ⟨value, rfl, ?_⟩
      rw [freshInstance] at made
      dsimp only at made
      split at made
      next isCopied =>
        rcases Prod.mk.inj made with ⟨result, rfl⟩
        rcases Except.ok.inj result with rfl
        exact .copied isCopied
      next isShared =>
        rcases Prod.mk.inj made with ⟨result, rfl⟩
        rcases Except.ok.inj result with rfl
        exact .shared (Bool.eq_false_iff.mpr isShared) rfl fun key entry live =>
          (grounded.typedIn holds).value_ne_allocate _ live
  | onType =>
      rw [shape] at run
      rcases Prod.mk.inj run with ⟨result, rfl⟩
      rcases Prod.mk.inj (Except.ok.inj result) with ⟨rfl, -⟩
      rfl

include agrees

theorem sameRun_native (holds : (host.legality start).holds world) {call : NativeCall}
    (legitimate : call.Legitimate host.system made world) :
    (host.legality start).SameRun (exec (runner call) world) (exec (host.runner call) world) :=
  ⟨agrees world call legitimate, grounded.respects.runNative _ _ world holds⟩

theorem alike_callGroupBy {group : OverloadGroup} (lawful : group.Lawful host.system)
    (arguments : List ScriptValue) :
    (host.legality start).Alike (host.callGroupBy runner group arguments)
      (host.callGroupBy host.runner group arguments) := by
  have respects := grounded.respects.toRespects
  intro world holds
  refine .after (respects.resolveOverload _ _ world holds) fun candidate chosen resolved holds => ?_
  rcases lawful candidate (mem_of_resolveOverload resolved) with ⟨declared, subject⟩
  refine .after (respects.hostArguments _ _ _ chosen holds) fun values converted _ holds => ?_
  rcases respects.receiverFor group candidate arguments holds with ⟨arrives, stands⟩
  refine .after arrives fun (receiver, key) before found reached => ?_
  have legitimate : NativeCall.Legitimate host.system made before ⟨.method candidate.method, arguments,
      ⟨candidate.method.owner, receiver, values, candidate.specialization.arguments⟩⟩ :=
    ⟨declared, rfl, subject ▸ grounded.receives_of_receiverFor holds found⟩
  have ran := grounded.sameRun_native agrees reached legitimate
  refine (ran.adapt fun _ _ => False.elim).bind fun completion after run _ => ?_
  refine .after (respects.native_writeBack (stands _ _ _ found) reached (exec_of_adapt_ok run)) ?_
  refine fun _ last _ written => .refl ?_
  split
  · exact (Invariant.KeptBy.bind (respects.push _) fun _ => .pure _) last written
  · exact Invariant.KeptBy.mapM _ (fun value _ => respects.push value) last written

theorem sameRun_runAccessorBy (holds : (host.legality start).holds world) {member : NativeMember}
    {given : List ScriptValue} {receiver : Option (HostValue × ProxyKey)}
    (declared : member.DeclaredIn host.system)
    (receives : member.subject.Receives host.system made world given (receiver.map Prod.fst))
    (stands : StandsFor world (receiver.map Prod.snd) (receiver.map Prod.fst)) (arguments : List HostValue) :
    (host.legality start).SameRun (exec (runAccessorBy runner member given receiver arguments) world)
      (exec (runAccessorBy host.runner member given receiver arguments) world) := by
  refine (grounded.sameRun_native agrees holds ⟨declared, rfl, receives⟩).bind fun completion after ran _ => ?_
  exact .refl ((grounded.respects.native_writeBack stands holds ran).bind fun _ _ _ written => .inl written)

variable {owner : TypeRef} {properties : List PropertyDef} {given : List ScriptValue}
  {receiver : HostValue × ProxyKey}

/-- The accessor of an indexer is called on an instance. -/
theorem sameRun_indexer (holds : (host.legality start).holds world)
    (finds : host.Finds world owner given receiver) {property : PropertyDef}
    (declared : property ∈ (host.system.definition owner).properties) {type : TypeRef}
    (keyed : keyType? property = some type) {accessor : MethodDef}
    (offered : property.getter = some accessor ∨ property.setter = some accessor) (arguments : List HostValue) :
    (host.legality start).SameRun
      (exec (runAccessorBy runner (.indexer owner property accessor) given (some receiver) arguments) world)
      (exec (runAccessorBy host.runner (.indexer owner property accessor) given (some receiver) arguments)
        world) := by
  have isIndexer : property.isIndexer = true := by
    rw [keyType?] at keyed
    rw [PropertyDef.isIndexer]
    cases parameters : property.indexParameters with
    | nil => rw [parameters] at keyed; cases keyed
    | cons first rest => rfl
  have onInstance := (grounded.regular owner).indexers property declared isIndexer
  have stands : StandsFor world ((some receiver).map Prod.snd) ((some receiver).map Prod.fst) := finds.standsFor
  rcases finds with ⟨proxy, passed, resolved, -, fits⟩
  have member : (NativeMember.indexer owner property accessor).DeclaredIn host.system := ⟨declared, isIndexer, offered⟩
  refine grounded.sameRun_runAccessorBy agrees holds member ?_ stands arguments
  rw [NativeMember.subject, onInstance]
  exact ⟨proxy, receiver.1, passed, rfl, grounded.lends holds resolved fits⟩

theorem sameRun_getItemFromBy (holds : (host.legality start).holds world)
    (finds : host.Finds world owner given receiver) (key : ScriptValue)
    (declared : ∀ property ∈ properties, property ∈ (host.system.definition owner).properties) :
    (host.legality start).SameRun (exec (host.getItemFromBy runner owner given receiver key properties) world)
      (exec (host.getItemFromBy host.runner owner given receiver key properties) world) := by
  have respects := grounded.respects.toRespects
  induction properties with
  | nil => exact .refl (.inl holds)
  | cons property rest ih =>
      rcases List.forall_mem_cons.mp declared with ⟨here, others⟩
      rw [getItemFromBy, getItemFromBy]
      split
      next type getter keyed gets =>
        rw [exec_bind_of_ok (exec_fits key type world), exec_bind_of_ok (exec_fits key type world)]
        split
        · refine sameRun_converted key type holds fun index => ?_
          have ran := grounded.sameRun_indexer agrees holds finds here keyed (.inl gets) [index]
          refine (ran.adapt fun _ _ => False.elim).bind fun value after _ holds => .refl ?_
          exact Invariant.KeptBy.bind (respects.push _) (fun _ => .pure _) after holds
        · exact ih others
      next => exact ih others

theorem alike_getItemBy (declared : ∀ property ∈ properties, property ∈ (host.system.definition owner).properties)
    (arguments : List ScriptValue) :
    (host.legality start).Alike (host.getItemBy runner owner properties arguments)
      (host.getItemBy host.runner owner properties arguments) := by
  cases properties with
  | nil => exact .pure _
  | cons first rest =>
      intro world holds
      refine sameRun_found (findsInstance_expectInstance _ _ _ world).1 holds fun receiver found => ?_
      exact grounded.sameRun_getItemFromBy agrees holds (finds_of_expectInstance found).2 _ declared

theorem sameRun_setItemInBy (holds : (host.legality start).holds world)
    (finds : host.Finds world owner given receiver) (key value : ScriptValue)
    (declared : ∀ property ∈ properties, property ∈ (host.system.definition owner).properties) :
    (host.legality start).SameRun
      (exec (host.setItemInBy runner owner given receiver key value properties) world)
      (exec (host.setItemInBy host.runner owner given receiver key value properties) world) := by
  induction properties with
  | nil => exact .refl (.inl holds)
  | cons property rest ih =>
      rcases List.forall_mem_cons.mp declared with ⟨here, others⟩
      rw [setItemInBy, setItemInBy]
      split
      next type setter keyed sets =>
        rw [exec_bind_of_ok (exec_fits key type world), exec_bind_of_ok (exec_fits key type world)]
        split
        · rw [exec_bind_of_ok (exec_fits value property.type world),
            exec_bind_of_ok (exec_fits value property.type world)]
          dsimp only
          split
          · exact .refl (.inl holds)
          · refine sameRun_converted key type holds fun index =>
              sameRun_converted value property.type holds fun item => ?_
            have ran := grounded.sameRun_indexer agrees holds finds here keyed (.inr sets) [index, item]
            exact ((ran.adapt fun _ _ => False.elim).map _).bind fun _ _ _ holds => .refl (.inl holds)
        · exact ih others
      next => exact ih others

theorem alike_setItemBy (declared : ∀ property ∈ properties, property ∈ (host.system.definition owner).properties)
    (arguments : List ScriptValue) :
    (host.legality start).Alike (host.setItemBy runner owner properties arguments)
      (host.setItemBy host.runner owner properties arguments) := by
  cases properties with
  | nil => exact .pure _
  | cons first rest =>
      intro world holds
      refine sameRun_found (findsInstance_expectInstance _ _ _ world).1 holds fun receiver found => ?_
      exact grounded.sameRun_setItemInBy agrees holds (finds_of_expectInstance found).2 _ _ declared

theorem alike_changeEventBy {event : EventDef} (declared : event ∈ (host.system.definition owner).events)
    (arguments : List ScriptValue) :
    (host.legality start).Alike (host.changeEventBy runner owner event arguments)
      (host.changeEventBy host.runner owner event arguments) := by
  intro world holds
  refine sameRun_found (memberReceiver_stands _ _ _ _ world).1 holds fun receiver found => ?_
  rcases receives_of_memberReceiver grounded holds found with ⟨-, stands, receives⟩
  dsimp only
  split
  next => exact .refl (.inl holds)
  next accessor signed =>
    have member : (NativeMember.event owner event accessor).DeclaredIn host.system := by
      refine ⟨declared, ?_⟩
      unfold handlerAccessor? at signed
      split at signed
      · exact .inl (Option.some.inj signed).symm
      · exact .inr (Option.some.inj signed).symm
      · cases signed
    split
    · refine sameRun_converted _ _ holds fun delegate => ?_
      have ran := grounded.sameRun_runAccessorBy agrees holds member receives stands [delegate]
      exact ((ran.adapt fun _ _ => False.elim).map _).bind fun _ _ _ holds => .refl (.inl holds)
    · exact .refl (.inl holds)

theorem alike_constructGroupBy {group : OverloadGroup} (lawful : group.Lawful host.system)
    (arguments : List ScriptValue) :
    (host.legality start).Alike (host.constructGroupBy runner group arguments)
      (host.constructGroupBy host.runner group arguments) := by
  rw [constructGroupBy, constructGroupBy]
  split
  · exact .of_keptBy (.bind (grounded.respects.push _) fun _ => .pure _)
  · split
    · exact .throw _
    · exact grounded.alike_callGroupBy agrees lawful arguments

/-- A lawful callable makes legitimate calls only. -/
theorem alike_runMemberBy {callable : Callable} (lawful : callable.Lawful host.system)
    (arguments : List ScriptValue) :
    (host.legality start).Alike (host.runMemberBy runner callable arguments)
      (host.runMemberBy host.runner callable arguments) := by
  cases callable with
  | method group => exact grounded.alike_callGroupBy agrees lawful arguments
  | constructor group => exact grounded.alike_constructGroupBy agrees lawful arguments
  | itemGetter owner properties => exact grounded.alike_getItemBy agrees lawful arguments
  | itemSetter owner properties => exact grounded.alike_setItemBy agrees lawful arguments
  | event owner event => exact grounded.alike_changeEventBy agrees lawful arguments
  | _ => exact .of_keptBy (grounded.respects.runMember _ arguments)

end Grounded

/-- All native code that an operation calls is called legitimately. -/
theorem callsOnly_legitimate (grounded : host.Grounded made start) (operation : Operation) :
    host.CallsOnly (NativeCall.Legitimate host.system made) operation start := by
  intro runner agrees
  rw [← host.performBy_runner operation]
  by_cases registers : ∃ callable, operation = .register callable
  · rcases registers with ⟨callable, rfl⟩
    rfl
  · refine (alike_performBy grounded.respects ?_ (fun callable same => registers ⟨callable, same⟩) ?_ start
      grounded.holds).same
    · refine alike_invokeWithinBy grounded.respects (fun world holds handle callable arguments found => ?_) _
      exact grounded.alike_runMemberBy agrees (holds.1.callables callable (Array.mem_of_getElem? found))
        arguments world holds
    · refine fun type _ => keptBy_unbind type fun world holds => ⟨?_, holds.2.tail (.unbind world type)⟩
      exact holds.1.change (.refl _) rfl rfl

end Host

end ScriptBridge
