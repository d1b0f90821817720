import ScriptBridge.Proofs.Realms.Bindings
import ScriptBridge.Proofs.Tables.Hidden

/-!
# Hidden overloads in every run

When the hidden members of a type that makes its members at first use are shown, a
placeholder for all overloads waits in the slot of each name with a hidden overload.
It waits there until some placeholder for the name is called. If that is itself, all
overloads are in the slot from then on; one that was read before they were shown
knows only the visible overloads, and then only these are.
-/

namespace ScriptBridge.Realm

open Bridge

variable {realm : Realm} {place : Nat} {context : Context} {type : TypeRef} {name : String} {isStatic : Bool}

theorem keepsCallables_act (present : realm.contexts[place]? = some context) (action : Action) {later : Context}
    (laterPresent : (realm.act action).contexts[place]? = some later) :
    KeepsCallables context.callables later.callables := by
  rcases context_act action laterPresent with
    unchanged | ⟨absent, -⟩ | ⟨before, operation, presentBefore, -, performed⟩
  · rw [present] at unchanged
    rw [Option.some.inj unchanged]
    exact .refl _
  · rw [present] at absent
    cases absent
  · rw [present] at presentBefore
    rw [performed, ← Option.some.inj presentBefore]
    exact Host.keepsCallables_of_steps (Host.steps_perform operation ⟨realm.store, context, []⟩)

theorem keepsCallables_actAll (present : realm.contexts[place]? = some context) (actions : List Action)
    {later : Context} (laterPresent : (realm.actAll actions).contexts[place]? = some later) :
    KeepsCallables context.callables later.callables := by
  induction actions generalizing realm context with
  | nil =>
      rcases Option.some.inj (present.symm.trans laterPresent) with rfl
      exact .refl _
  | cons action rest ih =>
      rcases exists_context_act present action with ⟨middle, middlePresent, -⟩
      exact (keepsCallables_act present action middlePresent).trans (ih middlePresent laterPresent)

/-- A placeholder for all methods of a name waits in its slot until some placeholder of the slot is resolved. -/
theorem awaitsAll_actAll (present : realm.contexts[place]? = some context) {handle : CallableHandle}
    (awaits : Host.AwaitsAll context type name isStatic handle) {actions : List Action}
    (kept : ∀ action ∈ actions, action ≠ .perform place (.unbind type)) :
    ∃ later, (realm.actAll actions).contexts[place]? = some later ∧
      (Host.AwaitsAll later type name isStatic handle ∨
        ∃ binding made, later.binding? type = some binding ∧
          binding.slot? (.ofMember .method isStatic) name = some (.bound made)) := by
  rcases awaits with ⟨⟨binding, bound, shows, waits⟩, registered⟩
  rcases continues_actAll present bound kept with ⟨later, next, laterPresent, laterBound, continues⟩
  refine ⟨later, laterPresent, ?_⟩
  -- Once hidden members are shown, a slot changes only from a placeholder to what it was resolved to.
  rcases continues.settled shows _ _ waits with ⟨slot, found, rfl | ⟨-, made⟩⟩
  · refine .inl ⟨⟨next, laterBound, continues.showsHidden shows, found⟩, ?_⟩
    exact keepsCallables_actAll present actions laterPresent handle _ registered
  · cases slot with
    | bound making => exact .inr ⟨next, making, laterBound, found⟩
    | unbound handle => cases made

/-- Once the hidden members are shown, a member that was made keeps its slot and its callable. -/
theorem made_actAll (present : realm.contexts[place]? = some context) {binding : TypeBinding}
    (bound : context.binding? type = some binding) (shows : binding.showsHidden = true) {table : MemberTable}
    {made : CallableHandle} (slot : binding.slot? table name = some (.bound made)) {callable : Callable}
    (registered : context.callable? made = some callable) {actions : List Action}
    (kept : ∀ action ∈ actions, action ≠ .perform place (.unbind type)) :
    ∃ later next, (realm.actAll actions).contexts[place]? = some later ∧ later.binding? type = some next ∧
      next.slot? table name = some (.bound made) ∧ later.callable? made = some callable := by
  rcases continues_actAll present bound kept with ⟨later, next, laterPresent, laterBound, continues⟩
  rcases continues.settled shows _ _ slot with ⟨found, there, rfl | ⟨impossible, -⟩⟩
  · exact ⟨later, next, laterPresent, laterBound, there,
      keepsCallables_actAll present actions laterPresent made _ registered⟩
  · cases impossible

/--
In every run, for a type that is not dropped: when its hidden members are shown, a
placeholder for all overloads waits for each method name with a hidden one. It waits
until the slot is bound. While it waits, a call through it puts the callable of all
overloads into the slot and runs it. What is in the slot then stays there.
-/
theorem hiddenOverloads_settle (actions : List Action) (place : Nat) (context : Context)
    (present : (core.actAll actions).contexts[place]? = some context) :
    let realm := core.actAll actions
    (∀ type binding after name isStatic member, context.binding? type = some binding →
      binding.mode = .lazy → binding.showsHidden = false →
      exec (realm.host.showHidden type) ⟨realm.store, context, []⟩ = (.ok (), after) →
      name ∈ Catalog.hiddenNames realm.system type →
      (Catalog.ofType realm.system type .all (realm.host.extensionsIn context)).find? .method name isStatic =
        some member →
      ∃ handle, Host.AwaitsAll after.context type name isStatic handle) ∧
    (∀ type name isStatic handle later, Host.AwaitsAll context type name isStatic handle →
      (∀ action ∈ later, action ≠ .perform place (.unbind type)) →
      ∃ last, (core.actAll (actions ++ later)).contexts[place]? = some last ∧
        (Host.AwaitsAll last type name isStatic handle ∨
          ∃ binding made, last.binding? type = some binding ∧
            binding.slot? (.ofMember .method isStatic) name = some (.bound made))) ∧
    (∀ type name isStatic handle member arguments reports, Host.AwaitsAll context type name isStatic handle →
      name ∈ Catalog.hiddenNames realm.system type →
      (Catalog.ofType realm.system type .all (realm.host.extensionsIn context)).find? .method name isStatic =
        some member →
      context.callables.size < UInt32.size →
      ∃ made binding after, after.context.callable? made = some (.ofMember realm.system type member) ∧
        after.context.binding? type = some binding ∧
        binding.slot? (.ofMember .method isStatic) name = some (.bound made) ∧
        exec (realm.host.call (.function handle) arguments) ⟨realm.store, context, reports⟩ =
          exec (realm.host.runMember (.ofMember realm.system type member) arguments) after) ∧
    (∀ type binding table name made callable later, context.binding? type = some binding →
      binding.showsHidden = true → binding.slot? table name = some (.bound made) →
      context.callable? made = some callable →
      (∀ action ∈ later, action ≠ .perform place (.unbind type)) →
      ∃ last next, (core.actAll (actions ++ later)).contexts[place]? = some last ∧
        last.binding? type = some next ∧ next.slot? table name = some (.bound made) ∧
        last.callable? made = some callable) := by
  intro realm
  refine ⟨?_, ?_, ?_, ?_⟩
  · intro type binding after name isStatic member bound onDemand hides run hidden listed
    exact @Host.awaitsAll_of_showHidden realm.host type binding ⟨realm.store, context, []⟩ after name isStatic bound
      onDemand hides run hidden member listed
  · intro type name isStatic handle later awaits kept
    rw [actAll_append]
    exact awaitsAll_actAll present awaits kept
  · intro type name isStatic handle member arguments reports awaits hidden listed room
    exact @Host.exec_call_of_awaitsAll realm.host type ⟨realm.store, context, reports⟩ name isStatic handle awaits
      hidden member listed room arguments
  · intro type binding table name made callable later bound shows slot registered kept
    rw [actAll_append]
    exact made_actAll present bound shows slot registered kept

/-- An operation is refused since no overload takes the arguments. -/
def refuses (realm : Realm) (place : Nat) (operation : Operation) : Bool :=
  (realm.perform? place operation).any fun performed =>
    match performed.1.result with
    | .error (.script (.noMatchingOverload _ _)) => true
    | _ => false

/-- A script reads the method of a door, and then the hidden members of doors are shown. -/
def doorShown : List Action :=
  doorBound ++ [.perform 0 (.index (.table ⟨5⟩) (.string "Open")), .perform 0 (.showHidden (.declared 14))]

/-- All overloads of a door's method are there once the hidden one is shown, and when its slot is called. -/
theorem hiddenOverloads_settle_doorShown :
    (∃ context after handle,
      (core.actAll doorBound).contexts[0]? = some context ∧
      exec ((core.actAll doorBound).host.showHidden (.declared 14)) ⟨(core.actAll doorBound).store, context, []⟩ =
        (.ok (), after) ∧
      Host.AwaitsAll after.context (.declared 14) "Open" true handle) ∧
    ∃ context member made after,
      (core.actAll doorShown).contexts[0]? = some context ∧
      Host.AwaitsAll context (.declared 14) "Open" true ⟨1⟩ ∧
      after.context.callable? made = some (.ofMember (core.actAll doorShown).system (.declared 14) member) ∧
      exec ((core.actAll doorShown).host.call (.function ⟨1⟩) [.string "key"])
          ⟨(core.actAll doorShown).store, context, []⟩ =
        exec ((core.actAll doorShown).host.runMember
          (.ofMember (core.actAll doorShown).system (.declared 14) member) [.string "key"]) after ∧
      ∃ last, (core.actAll (doorShown ++ [.perform 0 (.release .nil)])).contexts[0]? = some last ∧
        (Host.AwaitsAll last (.declared 14) "Open" true ⟨1⟩ ∨
          ∃ binding made, last.binding? (.declared 14) = some binding ∧
            binding.slot? (.ofMember .method true) "Open" = some (.bound made)) := by
  constructor
  · have reached : (core.actAll doorBound).contexts[0]?.any fun context =>
        (context.binding? (.declared 14)).any fun binding =>
          binding.mode = .lazy ∧ binding.showsHidden = false ∧
          (exec ((core.actAll doorBound).host.showHidden (.declared 14))
            ⟨(core.actAll doorBound).store, context, []⟩).1 = .ok () ∧
          ((Catalog.ofType (core.actAll doorBound).system (.declared 14) .all
            ((core.actAll doorBound).host.extensionsIn context)).find? .method "Open" true).isSome := by
      decide +kernel
    have hidden : "Open" ∈ Catalog.hiddenNames (core.actAll doorBound).system (.declared 14) := by
      decide +kernel
    rcases Option.any_eq_true _ _ |>.mp reached with ⟨context, present, rest⟩
    rcases Option.any_eq_true _ _ |>.mp rest with ⟨binding, bound, holds⟩
    rcases of_decide_eq_true holds with ⟨onDemand, hides, shown, listed⟩
    rcases Option.isSome_iff_exists.mp listed with ⟨member, found⟩
    cases run : exec ((core.actAll doorBound).host.showHidden (.declared 14))
        ⟨(core.actAll doorBound).store, context, []⟩ with
    | mk result after =>
        rw [run] at shown
        rcases shown with rfl
        rcases (hiddenOverloads_settle doorBound 0 context present).1 _ binding after _ _ member bound onDemand hides
          run hidden found with ⟨handle, awaits⟩
        exact ⟨context, after, handle, present, run, awaits⟩
  · have reached : (core.actAll doorShown).contexts[0]?.any fun context =>
        (context.binding? (.declared 14)).any fun binding =>
          binding.showsHidden = true ∧ binding.slot? .classMethods "Open" = some (.unbound ⟨1⟩) ∧
          context.callables.size < UInt32.size ∧
          ((Catalog.ofType (core.actAll doorShown).system (.declared 14) .all
            ((core.actAll doorShown).host.extensionsIn context)).find? .method "Open" true).isSome ∧
          (context.callable? ⟨1⟩).any fun callable =>
            callable.pending? = some (Host.hiddenPlaceholder (.declared 14) "Open" true) := by
      decide +kernel
    have hidden : "Open" ∈ Catalog.hiddenNames (core.actAll doorShown).system (.declared 14) := by
      decide +kernel
    rcases Option.any_eq_true _ _ |>.mp reached with ⟨context, present, rest⟩
    rcases Option.any_eq_true _ _ |>.mp rest with ⟨binding, bound, holds⟩
    rcases of_decide_eq_true holds with ⟨shows, waits, room, listed, waiting⟩
    rcases Option.any_eq_true _ _ |>.mp waiting with ⟨callable, registered, pending⟩
    rcases Option.isSome_iff_exists.mp listed with ⟨member, found⟩
    have awaits : Host.AwaitsAll context (.declared 14) "Open" true ⟨1⟩ := by
      refine ⟨⟨binding, bound, shows, waits⟩, registered.trans (congrArg some ?_)⟩
      exact Callable.eq_of_pending? (of_decide_eq_true pending)
    rcases hiddenOverloads_settle doorShown 0 context present with ⟨-, waiting, calling, -⟩
    rcases calling _ _ _ ⟨1⟩ member [.string "key"] [] awaits hidden found room with
      ⟨made, _, after, making, -, -, called⟩
    exact ⟨context, member, made, after, present, awaits, making, called,
      waiting _ _ _ ⟨1⟩ _ awaits (ne_unbind_of_mem_singleton Operation.noConfusion)⟩

/-- A call of the function that was read before takes the hidden overload away for good. -/
theorem not_forall_overloads_kept :
    ¬∀ (actions later : List Action) (place : Nat) (context : Context) (type : TypeRef) (binding : TypeBinding)
        (name : String) (arguments : List ScriptValue),
      (core.actAll actions).contexts[place]? = some context → context.binding? type = some binding →
      binding.mode = .lazy → binding.showsHidden = true →
      name ∈ Catalog.hiddenNames (core.actAll actions).system type →
      (∀ action ∈ later, action ≠ .perform place (.unbind type)) →
      (core.actAll actions).refuses place (.invokeMember (.table binding.classTable) name arguments) = false →
      (core.actAll (actions ++ later)).refuses place (.invokeMember (.table binding.classTable) name arguments) =
        false := by
  intro claim
  have reached : (core.actAll doorShown).contexts[0]?.any fun context =>
      (context.binding? (.declared 14)).any fun binding =>
        binding.mode = .lazy ∧ binding.showsHidden = true ∧ binding.classTable = ⟨5⟩ := by
    decide +kernel
  have hidden : "Open" ∈ Catalog.hiddenNames (core.actAll doorShown).system (.declared 14) := by
    decide +kernel
  have accepted : (core.actAll doorShown).refuses 0 (.invokeMember (.table ⟨5⟩) "Open" [.string "key"]) = false := by
    decide +kernel
  have refused : (core.actAll (doorShown ++ [.perform 0 (.call (.function ⟨0⟩) [.integer 1])])).refuses 0
      (.invokeMember (.table ⟨5⟩) "Open" [.string "key"]) = true := by
    decide +kernel
  rcases Option.any_eq_true _ _ |>.mp reached with ⟨context, present, rest⟩
  rcases Option.any_eq_true _ _ |>.mp rest with ⟨binding, bound, holds⟩
  rcases of_decide_eq_true holds with ⟨onDemand, shows, table⟩
  have again := claim doorShown [.perform 0 (.call (.function ⟨0⟩) [.integer 1])] 0 context (.declared 14) binding
    "Open" [.string "key"] present bound onDemand shows hidden
    (ne_unbind_of_mem_singleton Operation.noConfusion) (table ▸ accepted)
  rw [table, refused] at again
  cases again

end ScriptBridge.Realm
