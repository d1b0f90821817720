import ScriptBridge.Proofs.Realms.Bindings
import ScriptBridge.Proofs.Tables.Complete

/-!
# Complete bindings in every run

In every context of every run, a type that was not bound is complete when binding it
succeeds, and it stays so until it is dropped; the same goes for showing hidden
members. A type that was bound is taken to be complete: so one that is left bound by
a failure to bind it has empty tables, and binding it again succeeds nevertheless.
-/

namespace ScriptBridge

open Bridge

/-- What binding types and showing hidden members in a world can be relied on for. -/
structure Host.BindsReliably (host : Host) (world : World) : Prop where
  complete : ∀ type access mode table after, world.context.isBound type = false →
    exec (host.bindWith type access mode) world = (.ok table, after) →
    host.Complete type access mode table world after
  shown : ∀ type binding after, world.context.binding? type = some binding → binding.showsHidden = false →
    exec (host.showHidden type) world = (.ok (), after) → host.ShownWhole type binding world after
  /-- Nothing is done for a type that is bound. -/
  bound : ∀ type access mode binding, world.context.binding? type = some binding →
    exec (host.bindWith type access mode) world = (.ok binding.classTable, world)
  /-- A type is left bound by a failure only if its base is bound. -/
  unbound : ∀ type access mode error after base, world.context.isBound type = false →
    exec (host.bindWith type access mode) world = (.error error, after) →
    host.system.base? type = some base → after.context.isBound base = false → after.context.isBound type = false
  /-- Binding a type changes the binding of no other, even if it fails. -/
  others : ∀ type access mode other binding, world.context.binding? other = some binding →
    (exec (host.bindWith type access mode) world).2.context.binding? other = some binding

namespace Realm

variable {realm : Realm} {place : Nat} {context : Context} {type : TypeRef}

theorem bindsReliably_actAll (actions : List Action)
    (present : (core.actAll actions).contexts[place]? = some context) (reports : List Report) :
    (core.actAll actions).host.BindsReliably ⟨(core.actAll actions).store, context, reports⟩ where
  complete _ _ _ _ _ unbound run :=
    Host.complete_of_bindWithin (wired_actAll actions place context present).stands
      (consistent_cache actions present) unbound run
  shown _ _ _ bound hides run :=
    Host.shownWhole_of_showHidden (wired_actAll actions place context present) (consistent_cache actions present)
      bound hides run
  bound _ access mode _ bound := Host.exec_bindWith_of_bound bound access mode
  unbound _ _ _ _ _ _ unbound run := Host.isBound_eq_false_of_base unbound run
  others type access mode _ _ bound := Host.binding?_of_bindWith bound type access mode

/-- What a catalog lists stays in the tables of a type in every run that does not drop it. -/
theorem has_actAll (present : realm.contexts[place]? = some context) {binding : TypeBinding}
    (bound : context.binding? type = some binding) {catalog : Catalog} (has : binding.Has catalog)
    {actions : List Action} (kept : ∀ action ∈ actions, action ≠ .perform place (.unbind type)) :
    ∃ later next, (realm.actAll actions).contexts[place]? = some later ∧ later.binding? type = some next ∧
      next.Has catalog ∧ next.constructor = binding.constructor ∧
      (binding.showsHidden = true → next.showsHidden = true) := by
  rcases continues_actAll present bound kept with ⟨later, next, laterPresent, laterBound, continues⟩
  refine ⟨later, next, laterPresent, laterBound, has.continues continues, ?_, continues.showsHidden⟩
  rw [continues.rest]

/--
In every run: a type that was not bound is complete when binding it succeeds, and so
are its hidden members when showing them does; failures to bind are local, though
they may leave the type itself bound; and what was in its tables stays there until
the type is dropped.
-/
theorem bindings_complete (actions : List Action) (place : Nat) (context : Context)
    (present : (core.actAll actions).contexts[place]? = some context) :
    (core.actAll actions).host.BindsReliably ⟨(core.actAll actions).store, context, []⟩ ∧
    ∀ type binding catalog later, context.binding? type = some binding → binding.Has catalog →
      (∀ action ∈ later, action ≠ .perform place (.unbind type)) →
      ∃ last next, (core.actAll (actions ++ later)).contexts[place]? = some last ∧
        last.binding? type = some next ∧ next.Has catalog ∧ next.constructor = binding.constructor ∧
        (binding.showsHidden = true → next.showsHidden = true) := by
  refine ⟨bindsReliably_actAll actions present [], fun type binding catalog later bound has kept => ?_⟩
  rw [actAll_append]
  exact has_actAll present bound has kept

/-- An enumeration in a namespace of its own. -/
def color : TypeDef := .ofEnumeration "Taken" "Color" [("Red", 0), ("Green", 1)]

/-- A type with a constant of the enumeration, a method and a constructor. -/
def paint : TypeDef :=
  (((TypeDef.ofClass "Game" "Paint").addField
    ((FieldDef.named "Default" (.declared 14) .null).asLiteral (.enumeration (.declared 14) 1))).addMethods
      [.named "Mix" (.native 0)]).addConstructor (.named ".ctor" (.native 0))

def paintDeclared : List Action :=
  [.declare color, .declare paint, .addNative fun _ invocation => pure (invocation.complete .null),
    .openContext .standard]

/-- A script puts a number at the place of the namespace of the enumeration. -/
def paintBlocked : List Action := paintDeclared ++ [.perform 0 (.writeEntry ⟨0⟩ "Taken" (.integer 1))]

/-- Then paint cannot be bound, since its constant cannot be handed out. -/
def paintFailed : List Action := paintBlocked ++ [.perform 0 (.bind (.declared 15))]

/-- Paint that is bound shows its constant, and what is in its tables stays there. -/
theorem bindings_complete_paintDeclared :
    ∃ context table after entry,
      (core.actAll paintDeclared).contexts[0]? = some context ∧
      (core.actAll paintDeclared).host.Complete (.declared 15) .visibleOnly .eager table
        ⟨(core.actAll paintDeclared).store, context, []⟩ after ∧
      after.context.heap.get table (.string "Default") = entry ∧
      after.context.cache.Shows entry (.enumeration (.declared 14) 1) := by
  have reached : (core.actAll paintDeclared).contexts[0]?.any fun context =>
      !context.isBound (.declared 15) &&
        (exec ((core.actAll paintDeclared).host.bindWith (.declared 15) .visibleOnly .eager)
          ⟨(core.actAll paintDeclared).store, context, []⟩).1.isOk := by
    decide +kernel
  have captured : (((core.actAll paintDeclared).host.handedOut (.declared 15) .visibleOnly
      (core.actAll paintDeclared).store).get? "Default").any fun value =>
        Identity.of? value = some (.enumeration (.declared 14) 1) := by
    decide +kernel
  rcases Option.any_eq_true _ _ |>.mp reached with ⟨context, present, both⟩
  rcases Bool.and_eq_true_iff.mp both with ⟨unbound, succeeds⟩
  rcases Option.any_eq_true _ _ |>.mp captured with ⟨value, found, same⟩
  rcases exists_ok_of_isOk succeeds with ⟨table, run⟩
  have complete := (bindings_complete paintDeclared 0 context present).1.complete _ _ _ table _
    (Bool.not_eq_true' _ |>.mp unbound) run
  have identity := of_decide_eq_true same
  cases value with
  | enumeration type number =>
      cases identity
      exact ⟨context, table, _, _, present, complete, rfl, complete.displays "Default" _ found rfl⟩
  | _ => cases identity

/-- The failure leaves paint bound. -/
theorem exists_bound_of_paintBlocked :
    ∃ context error after, (core.actAll paintBlocked).contexts[0]? = some context ∧
      context.isBound (.declared 15) = false ∧
      exec ((core.actAll paintBlocked).host.bindWith (.declared 15) .visibleOnly .eager)
        ⟨(core.actAll paintBlocked).store, context, []⟩ = (.error error, after) ∧
      after.context.isBound (.declared 15) = true := by
  have failed : (core.actAll paintBlocked).contexts[0]?.any fun context =>
      let run := exec ((core.actAll paintBlocked).host.bindWith (.declared 15) .visibleOnly .eager)
        ⟨(core.actAll paintBlocked).store, context, []⟩
      context.isBound (.declared 15) = false ∧ run.1.isOk = false ∧ run.2.context.isBound (.declared 15) = true := by
    decide +kernel
  rcases Option.any_eq_true _ _ |>.mp failed with ⟨context, present, holds⟩
  rcases of_decide_eq_true holds with ⟨unbound, fails, bound⟩
  cases run : exec ((core.actAll paintBlocked).host.bindWith (.declared 15) .visibleOnly .eager)
      ⟨(core.actAll paintBlocked).store, context, []⟩ with
  | mk result after =>
      rw [run] at fails bound
      cases result with
      | ok table => cases fails
      | error error => exact ⟨context, error, after, present, unbound, run, bound⟩

/-- Then binding paint again succeeds, without the members of paint. -/
theorem exists_lacking_of_paintFailed :
    ∃ context table after binding, (core.actAll paintFailed).contexts[0]? = some context ∧
      exec ((core.actAll paintFailed).host.bindWith (.declared 15) .visibleOnly .eager)
        ⟨(core.actAll paintFailed).store, context, []⟩ = (.ok table, after) ∧
      after.context.binding? (.declared 15) = some binding ∧
      ¬binding.Has (.ofType (core.actAll paintFailed).system (.declared 15) .visibleOnly
        ((core.actAll paintFailed).host.extensionsIn context)) := by
  have again : (core.actAll paintFailed).contexts[0]?.any fun context =>
      let run := exec ((core.actAll paintFailed).host.bindWith (.declared 15) .visibleOnly .eager)
        ⟨(core.actAll paintFailed).store, context, []⟩
      run.1.isOk && (run.2.context.binding? (.declared 15)).any fun binding =>
        (Catalog.ofType (core.actAll paintFailed).system (.declared 15) .visibleOnly
          ((core.actAll paintFailed).host.extensionsIn context)).members.any fun member =>
            (binding.slots.get? member.place).isNone := by
    decide +kernel
  rcases Option.any_eq_true _ _ |>.mp again with ⟨context, present, holds⟩
  rcases Bool.and_eq_true_iff.mp holds with ⟨succeeds, without⟩
  rcases Option.any_eq_true _ _ |>.mp without with ⟨binding, bound, lacks⟩
  rcases List.any_eq_true.mp lacks with ⟨member, listed, absent⟩
  rcases exists_ok_of_isOk succeeds with ⟨table, run⟩
  refine ⟨context, table, _, binding, present, run, bound, fun has => ?_⟩
  have slot := has.slots member listed
  rw [Option.isNone_iff_eq_none.mp absent] at slot
  cases slot

/--
A type can be left bound by a failure to bind it, and then it is bound again with
success though nothing that belongs to it is in its tables.
-/
theorem not_forall_bound_complete :
    (¬∀ (actions : List Action) (place : Nat) (context : Context) (type : TypeRef) (access : MemberAccess)
        (mode : BindingMode) (error : BindError) (after : World),
      (core.actAll actions).contexts[place]? = some context → context.isBound type = false →
      exec ((core.actAll actions).host.bindWith type access mode) ⟨(core.actAll actions).store, context, []⟩ =
        (.error error, after) →
      after.context.isBound type = false) ∧
    ¬∀ (actions : List Action) (place : Nat) (context : Context) (type : TypeRef) (access : MemberAccess)
        (mode : BindingMode) (table : TableId) (after : World) (binding : TypeBinding),
      (core.actAll actions).contexts[place]? = some context →
      (∀ action ∈ actions, ∀ other, action ≠ .perform place (.unbind other)) →
      exec ((core.actAll actions).host.bindWith type access mode) ⟨(core.actAll actions).store, context, []⟩ =
        (.ok table, after) →
      after.context.binding? type = some binding →
      binding.Has (.ofType (core.actAll actions).system type access
        ((core.actAll actions).host.extensionsIn context)) := by
  constructor
  · intro claim
    rcases exists_bound_of_paintBlocked with ⟨context, error, after, present, unbound, run, bound⟩
    rw [claim paintBlocked 0 context _ _ _ error after present unbound run] at bound
    cases bound
  · intro claim
    rcases exists_lacking_of_paintFailed with ⟨context, table, after, binding, present, run, bound, lacks⟩
    refine lacks (claim paintFailed 0 context _ _ _ table after binding present ?_ run bound)
    intro action listed other
    simp only [paintFailed, paintBlocked, paintDeclared, List.cons_append, List.nil_append,
      List.mem_cons, List.not_mem_nil, or_false] at listed
    rcases listed with rfl | rfl | rfl | rfl | rfl | rfl <;> intro same <;> cases same

end Realm

end ScriptBridge
