import ScriptBridge.Proofs.Conversion.RoundTrip
import ScriptBridge.Proofs.Realms.Actions
import ScriptBridge.Proofs.Steps.Registering

/-!
# Functions that contexts leave in the host

A delegate stores the number of a callable and not whose callable it is. Every context
reads it back as the function of that number. For the context that stored it this is the
callable it was, in every later state; another context takes it for a callable of its own.
-/

namespace ScriptBridge

namespace Realm

open Bridge

variable {realm : Realm} {place : Nat} {context : Context}

/-- The callables of a context stay under their handles. -/
theorem exists_callable?_act (present : realm.contexts[place]? = some context) (action : Action) :
    ∃ later, (realm.act action).contexts[place]? = some later ∧
      ∀ handle callable, context.callable? handle = some callable → later.callable? handle = some callable := by
  rcases exists_context_act present action with ⟨later, found, -⟩
  refine ⟨later, found, ?_⟩
  rcases context_act action found with
    unchanged | ⟨absent, -⟩ | ⟨before, operation, presentBefore, -, performed⟩
  · rcases Option.some.inj (present.symm.trans unchanged) with rfl
    exact fun _ _ => id
  · rw [present] at absent
    cases absent
  · rcases Option.some.inj (present.symm.trans presentBefore) with rfl
    rw [performed]
    exact Host.keepsCallables_of_steps (Host.steps_perform operation ⟨realm.store, context, []⟩)

theorem callable?_actAll (present : realm.contexts[place]? = some context) (actions : List Action)
    {later : Context} (laterPresent : (realm.actAll actions).contexts[place]? = some later)
    {handle : CallableHandle} {callable : Callable} (registered : context.callable? handle = some callable) :
    later.callable? handle = some callable := by
  induction actions generalizing realm context with
  | nil =>
      rcases Option.some.inj (present.symm.trans laterPresent) with rfl
      exact registered
  | cons action rest ih =>
      rcases exists_callable?_act present action with ⟨middle, middlePresent, kept⟩
      exact ih middlePresent laterPresent (kept handle callable registered)

/--
A function goes into the host as the number of its callable, and whatever happens afterwards, every context
reads it back as the function of that number and calls delegates by that number. The context that stored it
gets its own callable again; a context with no callable of that number calls nothing.
-/
theorem functions_goByNumber (actions later : List Action) (owner : Nat) (context : Context)
    (present : (core.actAll actions).contexts[owner]? = some context) (handle : CallableHandle)
    (callable : Callable) (registered : context.callable? handle = some callable) (type : TypeRef) :
    let after := (core.actAll actions).actAll later
    ∃ delegate : Delegate, delegate.targets = [handle.target] ∧
      context.toHost (core.actAll actions).system (.function handle) type = .ok (.delegate delegate) ∧
      ∀ (reader : Nat) (other : Context), after.contexts[reader]? = some other →
        let world : World := ⟨after.store, other, []⟩
        exec (after.host.push (.delegate delegate)) world = (.ok (.function handle), world) ∧
        (∀ field : Field, field.definition.isStatic = true →
          after.store.readField? field none = some (.delegate delegate) →
          exec (after.host.runMember (.fieldGetter field) []) world = (.ok [.function handle], world)) ∧
        (∀ arguments, exec (after.host.callTargets after.host.invoke delegate arguments) world =
          exec (after.host.call (.function handle) arguments) world) ∧
        (reader = owner → other.callable? handle = some callable) ∧
        (other.callable? handle = none →
          ∀ arguments, exec (after.host.call (.function handle) arguments) world =
            (.error (.notCallable "function"), world)) := by
  intro after
  refine ⟨_, rfl, rfl, fun reader other otherPresent => ?_⟩
  intro world
  have pushed : ∀ type, exec (after.host.push (.delegate ⟨type, [handle.target]⟩)) world =
      (.ok (.function handle), world) := by
    intro type
    rw [Host.push, Host.pushBy]
    simp [HostValue.toScript?]
  refine ⟨pushed _, fun field isStatic stored => ?_, fun arguments => ?_, fun same => ?_, fun absent arguments => ?_⟩
  · have found : world.store.readField? field none = _ := stored
    simp only [Host.runMember, Host.getField, Host.memberReceiver, isStatic, if_true, pure_bind]
    rw [exec_bind_of_ok (exec_store world)]
    simp only [Option.map_none, found]
    rw [bind_pure_comp, exec_map, asScript, exec_adapt, pushed]
    rfl
  · simp [Host.callTargets, Host.call, Host.callBy]
  · subst same
    exact callable?_actAll present later otherPresent registered
  · simp only [Host.call, Host.callBy, Host.invoke]
    cases after.host.callDepth <;> simp [Host.invokeWithin, exec_bind, world, absent]

/-- The value that a context of the realm gives when an operation is performed, if it gives one. -/
def value? (realm : Realm) (place : Nat) (operation : Operation) : Option ScriptValue :=
  (realm.perform? place operation).bind fun performed =>
    match performed.1.result with
    | .ok (.value value) => some value
    | _ => none

def handler : TypeDef := .ofDelegate "Game" "Handler"

/-- A type with a static field for a function. -/
def hub : TypeDef :=
  { TypeDef.ofClass "Game" "Hub" with
    fields := [{ FieldDef.named "OnTick" (.declared 14) .null with isStatic := true }] }

/-- Two contexts have each one function of their own, and have bound the type. -/
def hubBound : List Action :=
  [.declare handler, .declare hub, .openContext .standard, .openContext .standard,
    .perform 0 (.register (.embedder "first" fun _ => .finish)),
    .perform 1 (.register (.embedder "second" fun _ => .finish)),
    .perform 0 (.bind (.declared 15)), .perform 1 (.bind (.declared 15))]

/--
A context reads nothing from a place of the host; after another context stored a function there, it reads
a function that it takes for another callable, which is its own.
-/
theorem not_forall_functions_kept :
    ¬∀ (actions : List Action) (owner reader : Nat) (ownerTable readerTable key : ScriptValue)
        (context other : Context) (handle read : CallableHandle) (callable found : Callable),
      (core.actAll actions).contexts[owner]? = some context → context.callable? handle = some callable →
      (core.actAll actions).value? reader (.index readerTable key) = some .nil →
      let stored := core.actAll (actions ++ [.perform owner (.assign ownerTable key (.function handle))])
      stored.value? reader (.index readerTable key) = some (.function read) →
      stored.contexts[reader]? = some other → other.callable? read = some found → found = callable := by
  intro claim
  let stored := core.actAll (hubBound ++ [.perform 0 (.assign (.table ⟨5⟩) (.string "OnTick") (.function ⟨0⟩))])
  have owns : ((core.actAll hubBound).contexts[0]?.bind fun context =>
      (context.callable? ⟨0⟩).map (Callable.name .core)) = some "first" := by
    decide +kernel
  have unread : (core.actAll hubBound).value? 1 (.index (.table ⟨5⟩) (.string "OnTick")) = some .nil := by
    decide +kernel
  have reads : stored.value? 1 (.index (.table ⟨5⟩) (.string "OnTick")) = some (.function ⟨0⟩) := by
    decide +kernel
  have takes : (stored.contexts[1]?.bind fun context =>
      (context.callable? ⟨0⟩).map (Callable.name .core)) = some "second" := by
    decide +kernel
  rcases Option.bind_eq_some_iff.mp owns with ⟨context, present, named⟩
  rcases Option.map_eq_some_iff.mp named with ⟨callable, registered, first⟩
  rcases Option.bind_eq_some_iff.mp takes with ⟨other, otherPresent, named⟩
  rcases Option.map_eq_some_iff.mp named with ⟨found, taken, second⟩
  have same := claim hubBound 0 1 (.table ⟨5⟩) (.table ⟨5⟩) (.string "OnTick") context other ⟨0⟩ ⟨0⟩ callable
    found present registered unread reads otherPresent taken
  rw [same, first] at second
  exact absurd second (by decide)

/-- The function that is stored is read back by the context that stored it as its own, and by the other as well. -/
theorem functions_goByNumber_hubBound :
    ∃ context callable other found,
      (core.actAll hubBound).contexts[0]? = some context ∧ context.callable? ⟨0⟩ = some callable ∧
      (core.actAll hubBound).contexts[1]? = some other ∧ other.callable? ⟨0⟩ = some found ∧
      ∃ delegate : Delegate, context.toHost (core.actAll hubBound).system (.function ⟨0⟩) (.declared 14) =
          .ok (.delegate delegate) ∧
        (exec ((core.actAll hubBound).host.push (.delegate delegate))
          ⟨(core.actAll hubBound).store, other, []⟩).1 = .ok (.function ⟨0⟩) := by
  have both : ((core.actAll hubBound).contexts[0]?.bind fun context => (context.callable? ⟨0⟩).bind fun callable =>
      (core.actAll hubBound).contexts[1]?.bind fun other => (other.callable? ⟨0⟩).map fun found =>
        (callable.isPlaceholder, found.isPlaceholder)) = some (false, false) := by
    decide +kernel
  rcases Option.bind_eq_some_iff.mp both with ⟨context, present, rest⟩
  rcases Option.bind_eq_some_iff.mp rest with ⟨callable, registered, rest⟩
  rcases Option.bind_eq_some_iff.mp rest with ⟨other, otherPresent, rest⟩
  rcases Option.map_eq_some_iff.mp rest with ⟨found, taken, -⟩
  rcases functions_goByNumber hubBound [] 0 context present ⟨0⟩ callable registered (.declared 14) with
    ⟨delegate, -, converted, everywhere⟩
  rw [actAll_nil] at everywhere
  have read := congrArg Prod.fst (everywhere 1 other otherPresent).1
  exact ⟨context, callable, other, found, present, registered, otherPresent, taken, delegate, converted, read⟩

end Realm

end ScriptBridge
