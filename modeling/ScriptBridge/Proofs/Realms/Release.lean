import ScriptBridge.Proofs.Realms.Actions

/-!
# Use after release

A proxy that was let go never leads to an instance again: operations on it fail,
as an argument it is null, and letting go of it again does nothing. This holds
at every later moment of a run, as long as the generations of its slot did not
start again.
-/

namespace ScriptBridge

namespace Context

variable {context : Context} {proxy : Proxy} (system : TypeSystem)

theorem isReleased_of_dead (own : proxy.tag = context.cache.tag)
    (dead : context.cache.resolve? proxy = none) : context.cache.isReleased proxy = true := by
  simp [IdentityCache.isReleased, IdentityCache.owns, own, dead]

/-- A released proxy is passed as null. -/
theorem toHost_of_dead (own : proxy.tag = context.cache.tag) (dead : context.cache.resolve? proxy = none)
    (type : TypeRef) : context.toHost system (.proxy proxy) type = .ok .null := by
  simp [toHost, isReleased_of_dead own dead]

/-- A released proxy fits the types that have a null. -/
theorem compatibility_of_dead (own : proxy.tag = context.cache.tag)
    (dead : context.cache.resolve? proxy = none) (type : TypeRef) :
    context.compatibility system (.proxy proxy) type =
      if type ≠ .object ∧ (system.definition type).isValueType then none else some .assignable := by
  rw [compatibility]
  by_cases isObject : type = .object
  · simp [isObject, objectCompatibility, isReleased_of_dead own dead]
  · simp [isObject, proxyCompatibility, isReleased_of_dead own dead]

end Context

namespace Host

open Bridge

variable {host : Host} {world : World} {proxy : Proxy} (invoke : Invoker)

theorem exec_indexBy_of_dead (dead : world.context.cache.resolve? proxy = none) (key : ScriptValue) :
    exec (host.indexBy invoke (.proxy proxy) key) world =
      (.error (.staleProxy (host.fullName proxy.type)), world) := by
  simp [indexBy, indexInstance, liveValue, exec_bind, dead]

theorem exec_assignBy_of_dead (dead : world.context.cache.resolve? proxy = none) (key item : ScriptValue) :
    exec (host.assignBy invoke (.proxy proxy) key item) world =
      (.error (.staleProxy (host.fullName proxy.type)), world) := by
  simp [assignBy, assignInstance, liveValue, exec_bind, dead]

theorem exec_callBy_of_dead (dead : world.context.cache.resolve? proxy = none)
    (arguments : List ScriptValue) :
    exec (host.callBy invoke (.proxy proxy) arguments) world =
      (.error (.staleProxy (host.fullName proxy.type)), world) := by
  simp [callBy, exec_bind, dead]

theorem exec_invokeMemberBy_of_dead (dead : world.context.cache.resolve? proxy = none) (name : String)
    (arguments : List ScriptValue) :
    exec (host.invokeMemberBy invoke (.proxy proxy) name arguments) world =
      (.error (.staleProxy (host.fullName proxy.type)), world) := by
  rw [invokeMemberBy, exec_bind, exec_indexBy_of_dead invoke dead]

theorem exec_textBy_of_dead (dead : world.context.cache.resolve? proxy = none) :
    exec (host.textBy invoke (.proxy proxy)) world =
      (.error (.staleProxy (host.fullName proxy.type)), world) := by
  simp only [textBy]
  rw [exec_bind, exec_indexBy_of_dead invoke dead]

theorem exec_expectInstance_of_dead (dead : world.context.cache.resolve? proxy = none) (type : TypeRef)
    (activity : String) :
    exec (host.expectInstance (.proxy proxy) type activity) world =
      (.error (.staleProxy (host.fullName proxy.type)), world) := by
  simp [expectInstance, exec_bind, dead]

theorem exec_methodReceiver_of_dead (dead : world.context.cache.resolve? proxy = none)
    (group : OverloadGroup) (rest : List ScriptValue) :
    exec (host.methodReceiver group (.proxy proxy :: rest)) world =
      (.error (.staleProxy (host.fullName proxy.type)), world) := by
  simp [methodReceiver, exec_bind, dead]

theorem exec_release_of_dead {ε : Type} (dead : world.context.cache.resolve? proxy = none) :
    exec (release (.proxy proxy) : Bridge ε Bool) world = (.ok false, world) := by
  simp [release, exec_bind, IdentityCache.owns, dead]

/-- A proxy that was let go was one of this cache, and its key is spent. -/
theorem spent_of_release {ε : Type} {after : World}
    (run : exec (release (.proxy proxy) : Bridge ε Bool) world = (.ok true, after)) :
    proxy.tag = world.context.cache.tag ∧ after.context.cache.tag = world.context.cache.tag ∧
      after.context.cache.IsSpent proxy.key := by
  simp only [release, exec_bind, exec_context] at run
  split at run
  next owned =>
    split at run
    next value cache released =>
      rcases Prod.mk.inj run with ⟨-, rfl⟩
      refine ⟨?_, (IdentityCache.succeeds_release? released).tag_eq,
        IdentityCache.isSpent_of_release? released⟩
      by_contra foreign
      simp [IdentityCache.owns, IdentityCache.resolve?, foreign] at owned
    next => cases run
  next => cases run

end Host

namespace Realm

open Bridge

variable {realm : Realm} {place : Nat} {context : Context} {proxy : Proxy}

/-- An operation on a context gives a result and changes nothing. -/
def Answers (realm : Realm) (place : Nat) (operation : Operation) (result : Except Failure Answer) : Prop :=
  realm.perform? place operation = some (⟨result, []⟩, realm)

theorem answers_of_exec {operation : Operation} {result : Except Failure Answer}
    (present : realm.contexts[place]? = some context)
    (run : exec (realm.host.perform operation) ⟨realm.store, context, []⟩ =
      (result, ⟨realm.store, context, []⟩)) : realm.Answers place operation result := by
  rcases Array.getElem?_eq_some_iff.mp present with ⟨bound, found⟩
  rw [Answers, perform?_eq present, run]
  simp only [← found, Array.setIfInBounds, bound, dif_pos, Array.set_getElem_self]

theorem exec_answerScript_of_error {α : Type} {action : Bridge ScriptError α} {answer : α → Answer}
    {error : ScriptError} {world after : World} (run : exec action world = (.error error, after)) :
    exec (Host.answerScript action answer) world = (.error (.script error), after) := by
  rw [Host.answerScript, exec_map, exec_adapt, run]
  rfl

theorem exec_answerScript_of_ok {α : Type} {action : Bridge ScriptError α} {answer : α → Answer}
    {value : α} {world after : World} (run : exec action world = (.ok value, after)) :
    exec (Host.answerScript action answer) world = (.ok (answer value), after) := by
  rw [Host.answerScript, exec_map, exec_adapt, run]
  rfl

/-- Nothing is reached through a proxy of the context at a place. -/
structure Unreachable (realm : Realm) (place : Nat) (context : Context) (proxy : Proxy) : Prop where
  resolve : context.cache.resolve? proxy = none
  index : ∀ key, realm.Answers place (.index (.proxy proxy) key)
    (.error (.script (.staleProxy (realm.system.fullName proxy.type))))
  assign : ∀ key value, realm.Answers place (.assign (.proxy proxy) key value)
    (.error (.script (.staleProxy (realm.system.fullName proxy.type))))
  call : ∀ arguments, realm.Answers place (.call (.proxy proxy) arguments)
    (.error (.script (.staleProxy (realm.system.fullName proxy.type))))
  invokeMember : ∀ name arguments, realm.Answers place (.invokeMember (.proxy proxy) name arguments)
    (.error (.script (.staleProxy (realm.system.fullName proxy.type))))
  text : realm.Answers place (.text (.proxy proxy))
    (.error (.script (.staleProxy (realm.system.fullName proxy.type))))
  release : realm.Answers place (.release (.proxy proxy)) (.ok (.truth false))
  /-- As an argument the proxy is null. -/
  toHost : ∀ type, realm.Answers place (.toHost (.proxy proxy) type) (.ok (.host .null))
  /-- It is refused as an argument where there is no null. -/
  compatibility : ∀ type, context.compatibility realm.system (.proxy proxy) type =
    if type ≠ .object ∧ (realm.system.definition type).isValueType then none else some .assignable
  /-- It is refused as the receiver of a member. -/
  expectInstance : ∀ type activity,
    exec (realm.host.expectInstance (.proxy proxy) type activity) ⟨realm.store, context, []⟩ =
      (.error (.staleProxy (realm.system.fullName proxy.type)), ⟨realm.store, context, []⟩)
  methodReceiver : ∀ group rest,
    exec (realm.host.methodReceiver group (.proxy proxy :: rest)) ⟨realm.store, context, []⟩ =
      (.error (.staleProxy (realm.system.fullName proxy.type)), ⟨realm.store, context, []⟩)

theorem unreachable_of_dead (present : realm.contexts[place]? = some context)
    (own : proxy.tag = context.cache.tag) (dead : context.cache.resolve? proxy = none) :
    realm.Unreachable place context proxy where
  resolve := dead
  index := fun _ => answers_of_exec present (exec_answerScript_of_error (Host.exec_indexBy_of_dead _ dead _))
  assign := fun _ _ =>
    answers_of_exec present (exec_answerScript_of_error (Host.exec_assignBy_of_dead _ dead _ _))
  call := fun _ => answers_of_exec present (exec_answerScript_of_error (Host.exec_callBy_of_dead _ dead _))
  invokeMember := fun _ _ =>
    answers_of_exec present (exec_answerScript_of_error (Host.exec_invokeMemberBy_of_dead _ dead _ _))
  text := answers_of_exec present (exec_answerScript_of_error (Host.exec_textBy_of_dead _ dead))
  release := answers_of_exec present (exec_answerScript_of_ok (Host.exec_release_of_dead dead))
  toHost := by
    intro type
    have run := @Host.exec_toHost realm.host (.proxy proxy) type ⟨realm.store, context, []⟩
    rw [Context.toHost_of_dead _ own dead] at run
    exact answers_of_exec present (exec_answerScript_of_ok run)
  compatibility := Context.compatibility_of_dead _ own dead
  expectInstance := Host.exec_expectInstance_of_dead dead
  methodReceiver := Host.exec_methodReceiver_of_dead dead

/-- A release succeeds where the context lets go of the proxy. -/
theorem exists_perform_release (present : realm.contexts[place]? = some context)
    (succeeded : (exec (Host.release (.proxy proxy) : Bridge ScriptError Bool)
      ⟨realm.store, context, []⟩).1 = .ok true) :
    ∃ outcome, realm.perform? place (.release (.proxy proxy)) =
        some (outcome, realm.act (.perform place (.release (.proxy proxy)))) ∧
      outcome.result = .ok (.truth true) := by
  rw [act_perform present, perform?_eq present]
  refine ⟨_, rfl, ?_⟩
  dsimp only
  rw [Host.perform, exec_answerScript_of_ok (Prod.ext succeeded rfl)]

/-- A release that succeeded leaves the key of the proxy spent in the cache of its context. -/
theorem spent_of_perform_release {outcome : Outcome Failure Answer} {released : Realm}
    (performed : realm.perform? place (.release (.proxy proxy)) = some (outcome, released))
    (succeeded : outcome.result = .ok (.truth true)) :
    ∃ context, released.contexts[place]? = some context ∧ proxy.tag = context.cache.tag ∧
      context.cache.IsSpent proxy.key := by
  cases present : realm.contexts[place]? with
  | none => simp [perform?, present] at performed
  | some before =>
      rw [perform?_eq present] at performed
      rcases Prod.mk.inj (Option.some.inj performed) with ⟨rfl, rfl⟩
      have bound := (Array.getElem?_eq_some_iff.mp present).1
      dsimp only at succeeded ⊢
      cases run : exec (Host.release (.proxy proxy) : Bridge ScriptError Bool)
          ⟨realm.store, before, []⟩ with
      | mk result after =>
          cases result with
          | error error =>
              rw [Host.perform, exec_answerScript_of_error run] at succeeded
              cases succeeded
          | ok found =>
              rw [Host.perform, exec_answerScript_of_ok run] at succeeded ⊢
              obtain rfl : found = true := Answer.truth.inj (Except.ok.inj succeeded)
              rcases Host.spent_of_release run with ⟨own, sameTag, spent⟩
              refine ⟨after.context, ?_, own.trans sameTag.symm, spent⟩
              simp [bound]

/--
Use after release never aliases. A released key is dead at every later moment and nothing changes through
it; values that got new keys never got equal ones; and a proxy that a context let go of never leads to
anything again, whatever happens to the realm later.
-/
theorem released_stays_released :
    (∀ tag earlier request later key,
      let before := (IdentityCache.empty tag).afterAll earlier
      let cache := (before.after request).afterAll later
      before.released? request = some key → cache.FewReleases →
        cache.get? key = none ∧ (∀ proxy, proxy.key = key → cache.resolve? proxy = none) ∧
        (∀ value, cache.update? key value = none ∧ cache.after (.update key value) = cache) ∧
        cache.release? key = none ∧ cache.after (.release key) = cache) ∧
    (∀ tag earlier value type between other otherType,
      let before := (IdentityCache.empty tag).afterAll earlier
      let cache := (before.after (.represent value type)).afterAll between
      before.findKey? value = none → cache.findKey? other = none → cache.FewReleases →
        (cache.represent other otherType).1.key ≠ (before.represent value type).1.key) ∧
    (∀ (earlier later : List Action) (place : Nat) (proxy : Proxy) (outcome : Outcome Failure Answer)
        (released : Realm),
      (core.actAll earlier).perform? place (.release (.proxy proxy)) = some (outcome, released) →
      outcome.result = .ok (.truth true) →
      ∃ context, (released.actAll later).contexts[place]? = some context ∧
        (context.cache.FewReleases → (released.actAll later).Unreachable place context proxy)) := by
  refine ⟨?_, ?_, ?_⟩
  · intro tag earlier request later key before cache asked few
    have consistent : before.Consistent := (IdentityCache.consistent_empty tag).afterAll earlier
    have spent := IdentityCache.isSpent_of_released? asked
    have succeeds : cache.Succeeds (before.after request) :=
      IdentityCache.succeeds_afterAll (consistent.after request) later
    exact IdentityCache.refused_of_dead ((spent.of_succeeds succeeds).lookup? few)
  · intro tag earlier value type between other otherType before cache unknown otherUnknown few
    have consistent : before.Consistent := (IdentityCache.consistent_empty tag).afterAll earlier
    have represented : (before.after (.represent value type)).Consistent := consistent.after _
    exact IdentityCache.represent_key_ne consistent unknown
      (IdentityCache.succeeds_afterAll represented between) (represented.afterAll between) otherUnknown few
  · intro earlier later place proxy outcome released performed succeeded
    rcases spent_of_perform_release performed succeeded with ⟨before, present, own, spent⟩
    have reached : released = core.actAll (earlier ++ [.perform place (.release (.proxy proxy))]) := by
      rw [actAll_append, actAll_cons, actAll_nil, act, performed]
      rfl
    rw [reached] at present
    have consistent := consistent_cache _ present
    rcases exists_context_actAll present later with ⟨context, laterPresent, requests, caches⟩
    rw [← reached] at laterPresent
    have succeeds : context.cache.Succeeds before.cache := by
      rw [caches]
      exact IdentityCache.succeeds_afterAll consistent requests
    refine ⟨context, laterPresent, ?_⟩
    intro few
    apply unreachable_of_dead laterPresent (own.trans succeeds.tag_eq.symm)
    rw [IdentityCache.resolve?]
    split
    · rw [IdentityCache.get?, (spent.of_succeeds succeeds).lookup? few]
      rfl
    · rfl

/-- A type is handed to the script of a new context. -/
def handOver : List Action := [.openContext .standard, .perform 0 (.push (.type .object))]

/-- The proxy of the type that is handed over. -/
def handed : Proxy := ⟨⟨1, 0⟩, .typeType, ⟨1⟩⟩

/-- The realm after the script let go of the type and was handed another one. -/
def handedAgain : Realm :=
  ((core.actAll handOver).act (.perform 0 (.release (.proxy handed)))).actAll
    [.perform 0 (.push (.type .string))]

/-- The proxy of the first type leads to nothing though its slot is in use again. -/
theorem released_stays_released_handedAgain :
    ∃ context, handedAgain.contexts[0]? = some context ∧ (context.cache.get? ⟨1, 1⟩).isSome ∧
      handedAgain.Unreachable 0 context handed := by
  have lettingGo : (core.actAll handOver).contexts[0]?.any fun context =>
      (exec (Host.release (.proxy handed) : Bridge ScriptError Bool)
        ⟨(core.actAll handOver).store, context, []⟩).1 = .ok true := by
    decide +kernel
  have reused : handedAgain.contexts[0]?.all fun context =>
      context.cache.FewReleases ∧ (context.cache.get? ⟨1, 1⟩).isSome := by
    decide +kernel
  rcases Option.any_eq_true _ _ |>.mp lettingGo with ⟨before, present, succeeded⟩
  rcases exists_perform_release present (of_decide_eq_true succeeded) with ⟨outcome, performed, answered⟩
  rcases released_stays_released.2.2 handOver [.perform 0 (.push (.type .string))] 0 handed outcome _
    performed answered with ⟨context, laterPresent, unreachable⟩
  change handedAgain.contexts[0]? = some context at laterPresent
  rw [laterPresent] at reused
  rcases of_decide_eq_true reused with ⟨few, live⟩
  exact ⟨context, laterPresent, live, unreachable few⟩

end Realm

end ScriptBridge
