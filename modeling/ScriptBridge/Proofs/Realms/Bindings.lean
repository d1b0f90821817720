import ScriptBridge.Proofs.Realms.Tables
import ScriptBridge.Proofs.Tables.Accounting

/-!
# Bindings in every run

A binding lasts through every run that does not drop it. In a run in which nothing
fails to be bound, the count of bound types is never below their number; it is above
it when a type was bound once more while it waited for its base.
-/

namespace ScriptBridge.Realm

open Bridge

variable {realm : Realm} {place : Nat} {context : Context} {type : TypeRef} {binding : TypeBinding}

/-- What operations keep of a binding, unless they drop it, every run keeps that does not drop it. -/
theorem boundAs_actAll {good : TypeBinding → Prop}
    (performs : ∀ (host : Host) (operation : Operation) (world : World), operation ≠ .unbind type →
      (Invariant.boundAs type good).holds world →
      (Invariant.boundAs type good).holds (exec (host.perform operation) world).2)
    (present : realm.contexts[place]? = some context)
    (holds : ∃ binding, context.binding? type = some binding ∧ good binding) {actions : List Action}
    (kept : ∀ action ∈ actions, action ≠ .perform place (.unbind type)) :
    ∃ later, (realm.actAll actions).contexts[place]? = some later ∧
      ∃ binding, later.binding? type = some binding ∧ good binding := by
  induction actions generalizing realm context with
  | nil => exact ⟨context, present, holds⟩
  | cons action rest ih =>
      rcases List.forall_mem_cons.mp kept with ⟨first, others⟩
      rcases exists_context_act present action with ⟨middle, middlePresent, -⟩
      refine ih middlePresent ?_ others
      rcases context_act action middlePresent with
        unchanged | ⟨absent, -⟩ | ⟨before, operation, presentBefore, rfl, performed⟩
      · obtain rfl := Option.some.inj (present.symm.trans unchanged)
        exact holds
      · rw [present] at absent
        cases absent
      · obtain rfl := Option.some.inj (present.symm.trans presentBefore)
        rw [performed]
        exact performs realm.host operation _ (fun same => first (by rw [same])) holds

/-- A binding goes on in every run that does not drop it. -/
theorem continues_actAll (present : realm.contexts[place]? = some context)
    (bound : context.binding? type = some binding) {actions : List Action}
    (kept : ∀ action ∈ actions, action ≠ .perform place (.unbind type)) :
    ∃ later next, (realm.actAll actions).contexts[place]? = some later ∧ later.binding? type = some next ∧
      binding.Continues next := by
  rcases boundAs_actAll Host.continues_perform present ⟨binding, bound, .refl binding⟩ kept with
    ⟨later, laterPresent, next, nextBound, continues⟩
  exact ⟨later, next, laterPresent, nextBound, continues⟩

/-- If an action performs an operation at a place, it drops no binding, and nothing fails to be bound. -/
def BindsIn (realm : Realm) (place : Nat) (action : Action) : Prop :=
  ∀ operation, action = .perform place operation →
    (∀ type, operation ≠ .unbind type) ∧
      ∀ outcome after failure cause, realm.perform? place operation = some (outcome, after) →
        outcome.result = .error failure → ¬BindingFailure.tells failure cause

/-- No action of a run drops a binding of the context at a place, or fails to bind a type there. -/
def BindsThroughout (place : Nat) : Realm → List Action → Prop
  | _, [] => True
  | realm, action :: rest => realm.BindsIn place action ∧ BindsThroughout place (realm.act action) rest

/-- At least as many types are counted as are bound. -/
def CountsBound (realm : Realm) (place : Nat) : Prop :=
  ∀ context, realm.contexts[place]? = some context → context.bindings.size ≤ context.counters.typesBound

theorem CountsBound.act {action : Action} (counts : realm.CountsBound place)
    (binds : realm.BindsIn place action) : (realm.act action).CountsBound place := by
  intro later present
  rcases context_act action present with
    unchanged | ⟨-, config, -, rfl⟩ | ⟨before, operation, found, rfl, performed⟩
  · exact counts later unchanged
  · exact Nat.zero_le _
  · rcases binds operation rfl with ⟨keeps, succeeds⟩
    have kept := (Host.respects_counting realm.host 0).perform operation (fun _ _ => Host.keptBy_register id)
      fun type same => absurd same (keeps type)
    rcases kept ⟨realm.store, before, []⟩ (counts before found) with holds | ⟨failure, cause, failed, tells, -⟩
    · rw [performed]
      exact holds
    · exact absurd tells (succeeds _ _ failure cause (perform?_eq found operation) failed)

theorem CountsBound.actAll {actions : List Action} (counts : realm.CountsBound place)
    (binds : BindsThroughout place realm actions) : (realm.actAll actions).CountsBound place := by
  induction actions generalizing realm with
  | nil => exact counts
  | cons action rest ih => exact ih (counts.act binds.1) binds.2

/--
In every run: a binding goes on until it is dropped; where nothing fails to be bound
and no binding is dropped, at least as many types are counted as are bound; and where
the types are untangled, binding a type counts just the types that become bound.
-/
theorem bindings_accounted (actions : List Action) (place : Nat) (context : Context)
    (present : (core.actAll actions).contexts[place]? = some context) :
    (∀ type binding later, context.binding? type = some binding →
      (∀ action ∈ later, action ≠ .perform place (.unbind type)) →
      ∃ last next, (core.actAll (actions ++ later)).contexts[place]? = some last ∧
        last.binding? type = some next ∧ binding.Continues next) ∧
    (BindsThroughout place core actions → context.bindings.size ≤ context.counters.typesBound) ∧
    (∀ type access mode table after,
      (core.actAll actions).host.Untangled ⟨(core.actAll actions).store, context, []⟩ →
      exec ((core.actAll actions).host.bindWith type access mode) ⟨(core.actAll actions).store, context, []⟩ =
        (.ok table, after) →
      after.context.counters.typesBound + context.bindings.size =
        context.counters.typesBound + after.context.bindings.size) := by
  have counts : core.CountsBound place := fun _ impossible => by simp [core] at impossible
  refine ⟨fun type binding later bound kept => ?_, fun binds => counts.actAll binds context present, ?_⟩
  · rw [actAll_append]
    exact continues_actAll present bound kept
  · exact fun type access mode table after untangled run => Host.typesBound_bindWith untangled run

theorem bindsIn_of_ne {action : Action} (other : ∀ operation, action ≠ .perform place operation) :
    realm.BindsIn place action :=
  fun operation same => absurd same (other operation)

theorem ne_unbind_of_mem_singleton {operation : Operation} (keeps : operation ≠ .unbind type) :
    ∀ action ∈ [Action.perform place operation], action ≠ .perform place (.unbind type) := by
  intro action listed same
  rcases List.mem_singleton.mp listed with rfl
  exact keeps (Action.perform.inj same).2

theorem bindsIn_of_isOk {operation : Operation} (keeps : ∀ type, operation ≠ .unbind type)
    (succeeds : (realm.perform? place operation).all fun performed => performed.1.result.isOk) :
    realm.BindsIn place (.perform place operation) := by
  rintro _ same
  rcases Action.perform.inj same with ⟨-, rfl⟩
  refine ⟨keeps, fun outcome after failure cause performed failed _ => ?_⟩
  rw [performed, Option.all_some, failed] at succeeds
  cases succeeds

/-- The root of all types is the first that a new context binds. -/
def objectFirst : List Action := [.declare door, .openContext .standard, .perform 0 (.bind .object)]

/-- Binding a door counts one type, since what a door is built on is bound and stays bound. -/
theorem bindings_accounted_objectFirst :
    ∃ context binding table after,
      (core.actAll objectFirst).contexts[0]? = some context ∧ context.binding? .typeType = some binding ∧
      (∃ last next, (core.actAll (objectFirst ++ [.perform 0 (.bind (.declared 14))])).contexts[0]? = some last ∧
        last.binding? .typeType = some next ∧ binding.Continues next) ∧
      context.bindings.size ≤ context.counters.typesBound ∧
      exec ((core.actAll objectFirst).host.bindWith (.declared 14) .visibleOnly .eager)
        ⟨(core.actAll objectFirst).store, context, []⟩ = (.ok table, after) ∧
      after.context.counters.typesBound + context.bindings.size =
        context.counters.typesBound + after.context.bindings.size := by
  have binds : BindsThroughout 0 core objectFirst := by
    refine ⟨bindsIn_of_ne fun _ => Action.noConfusion, bindsIn_of_ne fun _ => Action.noConfusion,
      bindsIn_of_isOk (fun _ => Operation.noConfusion) ?_, trivial⟩
    decide +kernel
  have noFields : (core.actAll objectFirst).host.system.types.all fun definition => definition.fields.isEmpty := by
    decide +kernel
  have reached : (core.actAll objectFirst).contexts[0]?.any fun context =>
      context.isBound .typeType && (exec ((core.actAll objectFirst).host.bindWith (.declared 14) .visibleOnly .eager)
        ⟨(core.actAll objectFirst).store, context, []⟩).1.isOk := by
    decide +kernel
  rcases Option.any_eq_true _ _ |>.mp reached with ⟨context, present, both⟩
  rcases Bool.and_eq_true_iff.mp both with ⟨isBound, succeeds⟩
  rcases Option.isSome_iff_exists.mp isBound with ⟨binding, bound⟩
  rcases exists_ok_of_isOk succeeds with ⟨table, run⟩
  rcases bindings_accounted objectFirst 0 context present with ⟨continued, counted, balanced⟩
  refine ⟨context, binding, table, _, present, bound, continued _ _ _ bound ?_, counted binds, run,
    balanced _ _ _ _ _ ?_ run⟩
  · exact ne_unbind_of_mem_singleton Operation.noConfusion
  · refine Host.untangled_of_constants isBound fun type access extensions constant _ listed => ?_
    rw [TypeSystem.constants_eq_nil noFields] at listed
    cases listed

/-- The type of types is the first that a new context binds. -/
def typeFirst : List Action := [.openContext .standard, .perform 0 (.bind .typeType)]

/-- The count is not always the number of bound types: the type of types is bound again while it waits. -/
theorem not_forall_typesBound_eq :
    ¬∀ (actions : List Action) (place : Nat) (context : Context),
      (core.actAll actions).contexts[place]? = some context → BindsThroughout place core actions →
        context.counters.typesBound = context.bindings.size := by
  intro claim
  have counted : ((core.actAll typeFirst).contexts[0]?.map fun context =>
      (context.counters.typesBound, context.bindings.size)) = some (3, 2) := by
    decide +kernel
  have binds : BindsThroughout 0 core typeFirst := by
    refine ⟨bindsIn_of_ne fun _ => Action.noConfusion, bindsIn_of_isOk (fun _ => Operation.noConfusion) ?_,
      trivial⟩
    decide +kernel
  rcases Option.map_eq_some_iff.mp counted with ⟨context, present, same⟩
  rcases Prod.mk.inj same with ⟨three, two⟩
  have equal := claim typeFirst 0 context present binds
  omega

end ScriptBridge.Realm
