import ScriptBridge.Context.Operation
import ScriptBridge.Proofs.Identity.Consistency
import ScriptBridge.Proofs.Steps.Dispatch

/-!
# What operations keep

Calls keep an invariant, by induction on how deep embedder functions may nest and
on what an embedder function asks for. So does every operation. What a world
reaches by steps is such an invariant, hence every operation is a chain of steps.
-/

namespace ScriptBridge

instance : BindingFailure Failure :=
  ⟨fun failure cause => failure = .bind cause ∨ failure = .script (.ofBindError cause)⟩

/-- The requests that run no callables and write no entries. -/
def Operation.isQuiet : Operation → Bool
  | .bind _ | .bindWith _ _ _ | .ensureBound _ | .unbind _ | .showHidden _ | .release _ | .push _ | .toHost _ _
  | .resolveMember _ | .resolveOverload _ _ | .register _ | .createTable => true
  | _ => false

namespace Host

open Bridge

variable {host : Host} {invoke other : Invoker} {ε : Type} [BindingFailure ε] {invariant : Invariant}

theorem keptBy_readArgument (frame : Frame) (position : Nat) (type : TypeRef) :
    invariant.KeptBy (host.readArgument frame position type) := by
  refine .bind (keptBy_fits _ _) fun accepted => ?_
  split
  · exact keptBy_toHost _ _
  · exact .throw _

theorem Respects.report (respects : host.Respects invariant) (name : String) (arguments : List ScriptValue) :
    invariant.KeptBy (Bridge.report name arguments : Bridge ε Unit) :=
  fun world holds => .inl (respects.outside (.report world name arguments) rfl holds)

/-- What an embedder function asks for runs alike with two ways to call callables that run alike. -/
theorem alike_runProcedure
    (invokes : ∀ handle arguments, invariant.Alike (invoke handle arguments) (other handle arguments))
    (respects : host.RespectsWrites invariant) (procedure : Procedure) (frame : Frame) :
    invariant.Alike (host.runProcedure invoke procedure frame) (host.runProcedure other procedure frame) := by
  induction procedure generalizing frame with
  | finish => exact .pure _
  | fail message => exact .throw _
  | report name arguments next ih => exact .after (respects.report _ _) fun _ => ih frame
  | push value next ih => exact ih (frame.push value)
  | pushHost value next ih =>
      exact .after (.bind (respects.push _) fun _ => .pure _) fun pushed => ih pushed
  | read position type next ih => exact .after (keptBy_readArgument _ _ _) fun value => ih value frame
  | describe value next ih => exact .after .store fun store => ih _ frame
  | index target key next ih =>
      exact .bind (alike_indexBy invokes respects.toRespects _ _) fun value => ih value frame
  | assign target key value next ih => exact .bind (alike_assignBy invokes respects _ _ _) fun _ => ih frame
  | call function arguments next ih => exact .bind (alike_callBy invokes _ _) fun results => ih results frame
  | member target name arguments next ih =>
      exact .bind (alike_invokeMemberBy invokes respects.toRespects _ _ _) fun results => ih results frame
  | release target next ih => exact .after (respects.release _) fun released => ih released frame

theorem RespectsWrites.runProcedure (respects : host.RespectsWrites invariant)
    (invokes : ∀ handle arguments, invariant.KeptBy (invoke handle arguments)) (procedure : Procedure)
    (frame : Frame) : invariant.KeptBy (host.runProcedure invoke procedure frame) :=
  (alike_runProcedure (alike_invoke invokes) respects _ _).keptBy

theorem Respects.runMember (respects : host.Respects invariant) (callable : Callable)
    (arguments : List ScriptValue) : invariant.KeptBy (host.runMember callable arguments) := by
  cases callable with
  | method group => exact respects.callGroup _ _
  | fieldGetter field => exact respects.getField _ _
  | fieldSetter field => exact respects.setField _ _
  | itemGetter owner properties => exact respects.getItem _ _ _
  | itemSetter owner properties => exact respects.setItem _ _ _
  | event owner event => exact respects.changeEvent _ _ _
  | constructor group => exact respects.constructGroup _ _
  | delegateConstructor type => exact respects.wrapDelegate _ _
  | enumCast type => exact respects.castToEnum _ _
  | placeholder member => exact .throw _
  | embedder name body => exact .throw _

theorem Respects.runPlaceholder (respects : host.Respects invariant) (member : PendingMember)
    (arguments : List ScriptValue) : invariant.KeptBy (host.runPlaceholder member arguments) := by
  refine .bind (respects.resolveMember _) fun handle => .bind .context fun context => ?_
  split
  · exact .throw _
  · exact respects.runMember _ _

theorem RespectsWrites.invokeWithin (respects : host.RespectsWrites invariant) (depth : Nat) (handle : CallableHandle)
    (arguments : List ScriptValue) : invariant.KeptBy (host.invokeWithin depth handle arguments) := by
  induction depth generalizing handle arguments with
  | zero =>
      rw [Host.invokeWithin]
      refine .bind .context fun context => ?_
      split
      · exact .throw _
      · exact respects.runPlaceholder _ _
      · exact .throw _
      · exact respects.runMember _ _
  | succ depth ih =>
      rw [Host.invokeWithin]
      refine .bind .context fun context => ?_
      split
      · exact .throw _
      · exact respects.runPlaceholder _ _
      · exact .bind (respects.runProcedure ih _ _) fun _ => .pure _
      · exact respects.runMember _ _

theorem RespectsWrites.invokes (respects : host.RespectsWrites invariant) (handle : CallableHandle)
    (arguments : List ScriptValue) : invariant.KeptBy (host.invoke handle arguments) :=
  respects.invokeWithin _ handle arguments

theorem RespectsWrites.walk (respects : host.RespectsWrites invariant) (current : ScriptValue) (segments : List String) :
    invariant.KeptBy (host.walk current segments) := by
  induction segments generalizing current with
  | nil => exact .pure _
  | cons segment rest ih =>
      rw [Host.walk]
      split
      · exact .pure _
      · exact .bind (respects.indexBy respects.invokes _ _) ih

theorem RespectsWrites.global (respects : host.RespectsWrites invariant) (path : String) :
    invariant.KeptBy (host.global path) :=
  .bind .context fun _ => respects.walk _ _

theorem RespectsWrites.invokeDelegate (respects : host.RespectsWrites invariant) (delegate : Delegate)
    (arguments : List HostValue) : invariant.KeptBy (host.invokeDelegate delegate arguments) :=
  .bind (.mapM _ fun value _ => respects.push value) fun _ => keptBy_callTargets respects.invokes _ _

theorem keptBy_unbind (type : TypeRef)
    (allowed : ∀ world, invariant.holds world →
      invariant.holds
        { world with context := { world.context with
            bindings := world.context.bindings.erase type
            namespaces := world.context.namespaces.forget type } }) :
    invariant.KeptBy (unbind type : Bridge ε Bool) := by
  refine .bind .context fun context => ?_
  split
  · exact .bind (.modifyContext allowed) fun _ => .pure _
  · exact .pure _

theorem keptBy_answerBind {α : Type} {action : Bridge BindError α} (answer : α → Answer)
    (kept : invariant.KeptBy action) : invariant.KeptBy (answerBind action answer) :=
  .map _ (kept.adapt fun _ _ same => .inl (congrArg Failure.bind same))

theorem keptBy_answerScript {α : Type} {action : Bridge ScriptError α} (answer : α → Answer)
    (kept : invariant.KeptBy action) : invariant.KeptBy (answerScript action answer) :=
  .map _ (kept.adapt fun _ _ same => .inr (congrArg Failure.script same))

/--
A request that runs no callables and writes no entries keeps an invariant, if dropping a binding and
registering a callable keep it.
-/
theorem Respects.perform (respects : host.Respects invariant) {operation : Operation}
    (quiet : operation.isQuiet = true)
    (registers : ∀ callable, operation = .register callable →
      invariant.KeptBy (Bridge.register callable))
    (unbinds : ∀ type, operation = .unbind type →
      invariant.KeptBy (Host.unbind type : Bridge BindError Bool)) :
    invariant.KeptBy (host.perform operation) := by
  cases operation with
  | bind type => exact keptBy_answerBind _ (respects.loadClass type)
  | bindWith type access mode => exact keptBy_answerBind _ (respects.bindWith type access mode)
  | ensureBound type => exact keptBy_answerBind _ (respects.ensureBound type)
  | unbind type => exact keptBy_answerBind _ (unbinds type rfl)
  | showHidden type => exact keptBy_answerBind _ (respects.showHidden type)
  | release value => exact keptBy_answerScript _ (respects.release value)
  | push value => exact keptBy_answerBind _ (respects.pushBare value)
  | toHost value type => exact keptBy_answerScript _ (keptBy_toHost value type)
  | resolveMember member => exact keptBy_answerScript _ (respects.resolveMember member)
  | resolveOverload group arguments => exact keptBy_answerScript _ (respects.resolveOverload group arguments)
  | register callable => exact keptBy_answerBind _ (registers callable rfl)
  | createTable => exact keptBy_answerBind _ respects.createPlain
  | _ => cases quiet

/-- Every operation keeps an invariant that is respected, if dropping a binding and registering a callable keep it. -/
theorem RespectsWrites.perform (respects : host.RespectsWrites invariant) (operation : Operation)
    (registers : ∀ callable, operation = .register callable →
      invariant.KeptBy (Bridge.register callable))
    (unbinds : ∀ type, operation = .unbind type →
      invariant.KeptBy (Host.unbind type : Bridge BindError Bool)) :
    invariant.KeptBy (host.perform operation) := by
  cases operation with
  | global path => exact keptBy_answerScript _ (respects.global path)
  | index target key => exact keptBy_answerScript _ (respects.indexBy respects.invokes _ _)
  | assign target key value => exact keptBy_answerScript _ (respects.assignBy respects.invokes _ _ _)
  | call function arguments => exact keptBy_answerScript _ (keptBy_callBy respects.invokes _ _)
  | construct function arguments => exact keptBy_answerScript _ (keptBy_constructBy respects.invokes _ _)
  | invokeMember target name arguments =>
      exact keptBy_answerScript _ (respects.invokeMemberBy respects.invokes _ _ _)
  | operate operator left right => exact keptBy_answerScript _ (keptBy_operateBy respects.invokes _ _ _)
  | text value => exact keptBy_answerScript _ (respects.textBy respects.invokes _)
  | invokeDelegate delegate arguments => exact keptBy_answerScript _ (respects.invokeDelegate _ _)
  | writeEntry id name value =>
      refine .bind ?_ fun _ => .bind .context fun _ => .pure _
      exact .modifyContext fun _ => respects.writeKey id (.string name) value
  | _ => exact respects.toRespects.perform rfl registers unbinds

theorem binds_resolveMember (member : PendingMember) : host.Binds (host.resolveMember member) := by
  refine .bind .context fun context => ?_
  split
  · exact .throw _
  · split
    · exact .pure _
    · refine .bind binds_extensionMap fun extensions => ?_
      dsimp only
      split
      · exact .throw _
      · refine .bind (.adapt _ (binds_register _)) fun handle => ?_
        exact .bind (binds_rebind _ _) fun _ => .bind (binds_count _) fun _ => .pure _

/-- What every step keeps is respected. -/
theorem respects_of_steps
    (kept : ∀ {world after : World}, host.Step world after → invariant.holds world → invariant.holds after) :
    host.RespectsWrites invariant where
  toKeptOutside := keptOutside_of_steps fun step => kept (.outside step)
  represent simple typed := kept (.bind (.represent _ _ _ simple typed))
  countResolution matched := kept (.bind (.count _ fun counters => counters.countResolution matched))
  bindWith type access mode := .ofStepwise (binds_bindWith type access mode).steps fun _ _ => kept
  showHidden type := .ofStepwise (binds_showHidden type).steps fun _ _ => kept
  resolveMember member := .ofStepwise (binds_resolveMember member).steps fun _ _ => kept
  writeKey id key value := kept (.outside (.writeKey _ id key value))

/-- What allocating keeps, and every step of binding, is respected by what prepares a call. -/
theorem respectsPreparation_of_bindSteps
    (kept : ∀ {world after : World}, host.BindStep world after → invariant.holds world → invariant.holds after)
    (allocate : ∀ {world : World} (object : Instance HostValue), invariant.holds world →
      invariant.holds { world with store := (world.store.allocate object).2 }) :
    host.RespectsPreparation invariant where
  allocate := allocate
  represent simple typed := kept (.represent _ _ _ simple typed)
  countResolution matched := kept (.count _ fun counters => counters.countResolution matched)
  bindWith type access mode := .ofStepwise (binds_bindWith type access mode) fun _ _ => kept
  resolveMember member := .ofStepwise (binds_resolveMember member) fun _ _ => kept

/-- What a world reaches by steps. -/
theorem respects_reachedBy (start : World) : host.RespectsWrites (.reachedBy host.Step start) :=
  respects_of_steps fun step reached => reached.tail step

/-- Every operation is a chain of steps. -/
theorem steps_perform (operation : Operation) : host.Steps (host.perform operation) :=
  Invariant.stepwise_of_keptBy fun start =>
    (respects_reachedBy start).perform operation
      (fun callable _ => .ofStepwise (binds_register callable).steps fun _ _ => flip .tail)
      fun type _ => keptBy_unbind type fun world reached => reached.tail (.unbind world type)

/-!
## The cache in the course of operations

Operations reach the identity cache by requests alone: what an operation leaves
of the cache is what some requests make of it.
-/

section Cache

variable {world after : World}

/-- What a step leaves of the cache is what some requests make of it. -/
theorem Step.requests (step : host.Step world after) :
    ∃ requests, after.context.cache = world.context.cache.afterAll requests := by
  cases step with
  | bind step =>
      cases step with
      | represent value type => exact ⟨[.represent value type], rfl⟩
      | count change => exact ⟨[], rfl⟩
      | collect => exact ⟨[], rfl⟩
      | place => exact ⟨[], rfl⟩
      | rebind type change =>
          refine ⟨[], ?_⟩
          rw [Context.modifyBinding_eq]
          rfl
      | register => exact ⟨[], rfl⟩
      | writeEntry => exact ⟨[], rfl⟩
  | outside step =>
      cases step with
      | report => exact ⟨[], rfl⟩
      | native => exact ⟨[], rfl⟩
      | nativeOn method invocation key entry completion written => exact ⟨[.update key written], rfl⟩
      | allocate => exact ⟨[], rfl⟩
      | writeField => exact ⟨[], rfl⟩
      | writeFieldOn field key entry value written => exact ⟨[.update key written], rfl⟩
      | writeElement => exact ⟨[], rfl⟩
      | release key value cache released =>
          exact ⟨[.release key], by simp [IdentityCache.after, released]⟩
      | createTable => exact ⟨[], rfl⟩
      | writeKey => exact ⟨[], rfl⟩
  | unbind => exact ⟨[], rfl⟩

theorem Step.consistent (step : host.Step world after) (consistent : world.context.cache.Consistent) :
    after.context.cache.Consistent := by
  rcases step.requests with ⟨requests, changed⟩
  rw [changed]
  exact consistent.afterAll requests

/-- What requests make of a cache, whatever fails. -/
def requestedFrom (cache : IdentityCache) : Invariant where
  holds world := ∃ requests, world.context.cache = cache.afterAll requests
  excuses := fun _ => False

theorem Step.requestedFrom {cache : IdentityCache} (step : host.Step world after)
    (holds : (requestedFrom cache).holds world) : (Host.requestedFrom cache).holds after := by
  rcases holds with ⟨earlier, reached⟩
  rcases step.requests with ⟨more, changed⟩
  exact ⟨earlier ++ more, by rw [changed, reached, IdentityCache.afterAll_append]⟩

theorem requests_of_steps (steps : Relation.ReflTransGen host.Step world after) :
    ∃ requests, after.context.cache = world.context.cache.afterAll requests := by
  induction steps with
  | refl => exact ⟨[], rfl⟩
  | tail _ step ih => exact step.requestedFrom ih

/-- The cache stays consistent, whatever fails. -/
def consistency : Invariant where
  holds world := world.context.cache.Consistent
  excuses := fun _ => False

theorem respects_consistency (host : Host) : host.RespectsWrites consistency := respects_of_steps Step.consistent

theorem respects_requestedFrom (host : Host) (cache : IdentityCache) : host.RespectsWrites (requestedFrom cache) :=
  respects_of_steps Step.requestedFrom

end Cache

end Host

end ScriptBridge
