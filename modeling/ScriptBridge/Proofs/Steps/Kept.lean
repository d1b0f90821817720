import ScriptBridge.Proofs.Steps.Exec

/-!
# Invariants of worlds

What operations keep. An operation that fails to bind a type may break an invariant
that excuses such failures; then the failure of the operation tells of it.
-/

namespace ScriptBridge

/-- Errors of operations, some of which tell that a type could not be bound and why. -/
class BindingFailure (ε : Type) where
  tells : ε → BindError → Prop

instance : BindingFailure BindError := ⟨fun error cause => error = cause⟩

instance : BindingFailure ScriptError := ⟨fun error cause => error = .ofBindError cause⟩

/-- Native code binds nothing. -/
instance : BindingFailure HostException := ⟨fun _ _ => False⟩

/-- What is to hold of worlds, and the failures to bind a type after which it need not hold. -/
structure Invariant where
  holds : World → Prop
  excuses : BindError → Prop

namespace Invariant

open Bridge

variable {ε δ α β : Type} [BindingFailure ε] [BindingFailure δ] (invariant : Invariant)

/-- At the end of a run the invariant holds, or the run failed to bind a type and that is excused. -/
def Arrives (run : Except ε α × World) : Prop :=
  invariant.holds run.2 ∨
    ∃ error cause, run.1 = .error error ∧ BindingFailure.tells error cause ∧ invariant.excuses cause

/-- Every run of the operation from where the invariant holds arrives where it holds. -/
def KeptBy (action : Bridge ε α) : Prop :=
  ∀ world, invariant.holds world → invariant.Arrives (exec action world)

variable {invariant}

theorem Arrives.bind {action : Bridge ε α} {next : α → Bridge ε β} {world : World}
    (first : invariant.Arrives (exec action world))
    (second : ∀ value after, exec action world = (.ok value, after) → invariant.holds after →
      invariant.Arrives (exec (next value) after)) :
    invariant.Arrives (exec (action >>= next) world) := by
  rw [exec_bind]
  cases run : exec action world with
  | mk result after =>
      rw [run] at first
      cases result with
      | ok value =>
          rcases first with holds | ⟨_, _, impossible, _⟩
          · exact second value after run holds
          · cases impossible
      | error error =>
          rcases first with holds | ⟨told, cause, same, tells, excused⟩
          · exact .inl holds
          · exact .inr ⟨told, cause, congrArg Except.error (Except.error.inj same), tells, excused⟩

theorem KeptBy.holds_of_ok {action : Bridge ε α} {value : α} {world after : World}
    (kept : invariant.KeptBy action) (holds : invariant.holds world)
    (run : exec action world = (.ok value, after)) : invariant.holds after := by
  rcases kept world holds with arrived | ⟨_, _, impossible, _⟩
  · rwa [run] at arrived
  · rw [run] at impossible
    cases impossible

/-- If every failure to bind is excused, only runs that succeed have to keep the invariant. -/
theorem keptBy_of_ok {action : Bridge BindError α} (excuses : ∀ cause, invariant.excuses cause)
    (kept : ∀ world value after, invariant.holds world → exec action world = (.ok value, after) →
      invariant.holds after) : invariant.KeptBy action := by
  intro world holds
  cases run : exec action world with
  | mk result after =>
      cases result with
      | ok value => exact .inl (kept world value after holds run)
      | error error => exact .inr ⟨error, error, rfl, rfl, excuses error⟩

/-- An invariant that excuses no failure holds at the end of every run that arrives. -/
theorem Arrives.holds {run : Except ε α × World} (arrives : invariant.Arrives run)
    (unexcused : ∀ cause, ¬invariant.excuses cause) : invariant.holds run.2 := by
  rcases arrives with holds | ⟨_, cause, _, _, excused⟩
  · exact holds
  · exact absurd excused (unexcused cause)

theorem Arrives.map {action : Bridge ε α} {world : World} (change : α → β)
    (arrives : invariant.Arrives (exec action world)) :
    invariant.Arrives (exec (change <$> action) world) := by
  rw [exec_map]
  rcases arrives with holds | ⟨error, cause, failed, tells, excused⟩
  · exact .inl holds
  · exact .inr ⟨error, cause, congrArg (Except.map change) failed, tells, excused⟩

theorem Arrives.adapt {action : Bridge ε α} {world : World} {change : ε → δ}
    (told : ∀ error cause, BindingFailure.tells error cause → BindingFailure.tells (change error) cause)
    (arrives : invariant.Arrives (exec action world)) :
    invariant.Arrives (exec (ExceptT.adapt change action) world) := by
  rw [exec_adapt]
  rcases arrives with holds | ⟨error, cause, failed, tells, excused⟩
  · exact .inl holds
  · exact .inr ⟨change error, cause, congrArg (Except.mapError change) failed, told _ _ tells, excused⟩

namespace KeptBy

theorem pure (value : α) : invariant.KeptBy (Pure.pure value : Bridge ε α) := fun _ => .inl

theorem throw (error : ε) : invariant.KeptBy (MonadExcept.throw error : Bridge ε α) := fun _ => .inl

theorem ofExcept (result : Except ε α) : invariant.KeptBy (Bridge.ofExcept result) := by
  intro world holds
  rw [exec_ofExcept]
  exact .inl holds

theorem context : invariant.KeptBy (Bridge.context : Bridge ε Context) := fun _ => .inl

theorem store : invariant.KeptBy (Bridge.store : Bridge ε HostStore) := fun _ => .inl

theorem bind {action : Bridge ε α} {next : α → Bridge ε β} (first : invariant.KeptBy action)
    (second : ∀ value, invariant.KeptBy (next value)) : invariant.KeptBy (action >>= next) :=
  fun world holds => (first world holds).bind fun value after _ => second value after

theorem map {action : Bridge ε α} (change : α → β) (kept : invariant.KeptBy action) :
    invariant.KeptBy (change <$> action) :=
  fun world holds => (kept world holds).map change

theorem discard {action : Bridge ε α} (kept : invariant.KeptBy action) :
    invariant.KeptBy (Functor.discard action) :=
  kept.map _

theorem adapt {action : Bridge ε α} {change : ε → δ}
    (told : ∀ error cause, BindingFailure.tells error cause → BindingFailure.tells (change error) cause)
    (kept : invariant.KeptBy action) : invariant.KeptBy (ExceptT.adapt change action) :=
  fun world holds => (kept world holds).adapt told

theorem asScript {action : Bridge BindError α} (kept : invariant.KeptBy action) :
    invariant.KeptBy (Bridge.asScript action) :=
  kept.adapt fun _ _ => congrArg ScriptError.ofBindError

theorem modifyContext {change : Context → Context}
    (allowed : ∀ world, invariant.holds world →
      invariant.holds { world with context := change world.context }) :
    invariant.KeptBy (Bridge.modifyContext change : Bridge ε Unit) :=
  fun world holds => .inl (allowed world holds)

theorem mapM {next : α → Bridge ε β} (items : List α)
    (each : ∀ item ∈ items, invariant.KeptBy (next item)) : invariant.KeptBy (items.mapM next) := by
  induction items with
  | nil => exact pure []
  | cons item rest ih =>
      rcases List.forall_mem_cons.mp each with ⟨first, others⟩
      rw [List.mapM_cons]
      exact first.bind fun value => (ih others).bind fun values => pure _

theorem forM {next : α → Bridge ε PUnit} (items : List α)
    (each : ∀ item ∈ items, invariant.KeptBy (next item)) : invariant.KeptBy (items.forM next) := by
  induction items with
  | nil => exact pure _
  | cons item rest ih =>
      rcases List.forall_mem_cons.mp each with ⟨first, others⟩
      exact first.bind fun _ => ih others

/-- After a loop, what each round reaches holds of its item if the other rounds keep it. -/
theorem holds_of_forM {next : α → Bridge ε PUnit} {reached : α → Invariant} {items : List α} {world after : World}
    (reaches : ∀ item ∈ items, ∀ before finish, exec (next item) before = (.ok ⟨⟩, finish) →
      (reached item).holds finish)
    (kept : ∀ item ∈ items, ∀ other ∈ items, (reached item).KeptBy (next other))
    (run : exec (items.forM next) world = (.ok ⟨⟩, after)) : ∀ item ∈ items, (reached item).holds after := by
  induction items generalizing world with
  | nil => exact fun _ impossible => absurd impossible List.not_mem_nil
  | cons item rest ih =>
      rcases exec_bind_eq_ok run with ⟨_, middle, first, others⟩
      have inRest : ∀ {other}, other ∈ rest → other ∈ item :: rest := List.mem_cons_of_mem _
      have later := ih (fun other listed => reaches other (inRest listed))
        (fun one listed other also => kept one (inRest listed) other (inRest also)) others
      intro found listed
      rcases List.mem_cons.mp listed with rfl | among
      · have keeps : (reached found).KeptBy (rest.forM next) :=
          forM rest fun other also => kept found listed other (inRest also)
        exact keeps.holds_of_ok (reaches found listed _ _ first) others
      · exact later found among

theorem ofStepwise {step : World → World → Prop} {action : Bridge ε α} (stepwise : Stepwise step action)
    (kept : ∀ world after, step world after → invariant.holds world → invariant.holds after) :
    invariant.KeptBy action := by
  intro world holds
  refine .inl ?_
  have chain := stepwise world
  generalize (exec action world).2 = after at chain ⊢
  induction chain with
  | refl => exact holds
  | tail _ step ih => exact kept _ _ step ih

end KeptBy

/-- Two invariants together. -/
def both (first second : Invariant) : Invariant where
  holds world := first.holds world ∧ second.holds world
  excuses cause := first.excuses cause ∨ second.excuses cause

theorem KeptBy.both {first second : Invariant} {action : Bridge ε α} (one : first.KeptBy action)
    (other : second.KeptBy action) : (first.both second).KeptBy action := by
  rintro world ⟨here, there⟩
  rcases one world here with holds | ⟨error, cause, failed, tells, excused⟩
  · rcases other world there with also | ⟨error, cause, failed, tells, excused⟩
    · exact .inl ⟨holds, also⟩
    · exact .inr ⟨error, cause, failed, tells, .inr excused⟩
  · exact .inr ⟨error, cause, failed, tells, .inl excused⟩

/-- What is reached from a world by steps. -/
def reachedBy (step : World → World → Prop) (start : World) : Invariant where
  holds := Relation.ReflTransGen step start
  excuses := fun _ => False

theorem stepwise_of_keptBy {step : World → World → Prop} {action : Bridge ε α}
    (kept : ∀ start, (reachedBy step start).KeptBy action) : Stepwise step action :=
  fun world => (kept world world .refl).holds fun _ => id

/-!
## Operations that run alike

Two operations run alike where an invariant holds, if they do the same there and the
invariant holds again afterwards. An operation that runs alike with itself keeps the invariant.
-/

section

variable (invariant)

/-- The same run twice, and at its end the invariant holds. -/
structure SameRun (run other : Except ε α × World) : Prop where
  same : run = other
  arrives : invariant.Arrives other

/-- From where the invariant holds, both operations do the same and arrive where it holds. -/
def Alike (action other : Bridge ε α) : Prop :=
  ∀ world, invariant.holds world → invariant.SameRun (exec action world) (exec other world)

end

theorem SameRun.bind {action other : Bridge ε α} {next otherNext : α → Bridge ε β} {world : World}
    (first : invariant.SameRun (exec action world) (exec other world))
    (second : ∀ value after, exec other world = (.ok value, after) → invariant.holds after →
      invariant.SameRun (exec (next value) after) (exec (otherNext value) after)) :
    invariant.SameRun (exec (action >>= next) world) (exec (other >>= otherNext) world) := by
  refine ⟨?_, first.arrives.bind fun value after run holds => (second value after run holds).arrives⟩
  rw [exec_bind, exec_bind, first.same]
  have arrives := first.arrives
  cases run : exec other world with
  | mk result after =>
      rw [run] at arrives
      cases result with
      | error error => rfl
      | ok value =>
          rcases arrives with holds | ⟨_, _, impossible, _⟩
          · exact (second value after run holds).same
          · cases impossible

theorem SameRun.refl {run : Except ε α × World} (arrives : invariant.Arrives run) : invariant.SameRun run run :=
  ⟨rfl, arrives⟩

theorem SameRun.after {action : Bridge ε α} {next otherNext : α → Bridge ε β} {world : World}
    (first : invariant.Arrives (exec action world))
    (second : ∀ value after, exec action world = (.ok value, after) → invariant.holds after →
      invariant.SameRun (exec (next value) after) (exec (otherNext value) after)) :
    invariant.SameRun (exec (action >>= next) world) (exec (action >>= otherNext) world) :=
  (SameRun.refl first).bind second

theorem SameRun.map {action other : Bridge ε α} {world : World} (change : α → β)
    (same : invariant.SameRun (exec action world) (exec other world)) :
    invariant.SameRun (exec (change <$> action) world) (exec (change <$> other) world) := by
  refine ⟨?_, same.arrives.map change⟩
  rw [exec_map, exec_map, same.same]

theorem SameRun.adapt {action other : Bridge ε α} {world : World} {change : ε → δ}
    (told : ∀ error cause, BindingFailure.tells error cause → BindingFailure.tells (change error) cause)
    (same : invariant.SameRun (exec action world) (exec other world)) :
    invariant.SameRun (exec (ExceptT.adapt change action) world)
      (exec (ExceptT.adapt change other) world) := by
  refine ⟨?_, same.arrives.adapt told⟩
  rw [exec_adapt, exec_adapt, same.same]

namespace Alike

theorem of_keptBy {action : Bridge ε α} (kept : invariant.KeptBy action) : invariant.Alike action action :=
  fun world holds => ⟨rfl, kept world holds⟩

theorem keptBy {action other : Bridge ε α} (alike : invariant.Alike action other) : invariant.KeptBy other :=
  fun world holds => (alike world holds).arrives

theorem pure (value : α) : invariant.Alike (Pure.pure value : Bridge ε α) (Pure.pure value) :=
  of_keptBy (.pure value)

theorem throw (error : ε) :
    invariant.Alike (MonadExcept.throw error : Bridge ε α) (MonadExcept.throw error) :=
  of_keptBy (.throw error)

theorem bind {action other : Bridge ε α} {next otherNext : α → Bridge ε β} (first : invariant.Alike action other)
    (second : ∀ value, invariant.Alike (next value) (otherNext value)) :
    invariant.Alike (action >>= next) (other >>= otherNext) :=
  fun world holds => (first world holds).bind fun value after _ => second value after

/-- The first part keeps the invariant, and what follows runs alike. -/
theorem after {action : Bridge ε α} {next otherNext : α → Bridge ε β} (first : invariant.KeptBy action)
    (second : ∀ value, invariant.Alike (next value) (otherNext value)) :
    invariant.Alike (action >>= next) (action >>= otherNext) :=
  (of_keptBy first).bind second

theorem map {action other : Bridge ε α} (change : α → β) (alike : invariant.Alike action other) :
    invariant.Alike (change <$> action) (change <$> other) :=
  fun world holds => (alike world holds).map change

theorem adapt {action other : Bridge ε α} {change : ε → δ}
    (told : ∀ error cause, BindingFailure.tells error cause → BindingFailure.tells (change error) cause)
    (alike : invariant.Alike action other) :
    invariant.Alike (ExceptT.adapt change action) (ExceptT.adapt change other) :=
  fun world holds => (alike world holds).adapt told

theorem foldlM {next otherNext : β → α → Bridge ε β} (items : List α) (start : β)
    (each : ∀ value item, invariant.Alike (next value item) (otherNext value item)) :
    invariant.Alike (items.foldlM next start) (items.foldlM otherNext start) := by
  induction items generalizing start with
  | nil => exact pure start
  | cons item rest ih =>
      rw [List.foldlM_cons, List.foldlM_cons]
      exact (each start item).bind ih

end Alike

end Invariant

end ScriptBridge
