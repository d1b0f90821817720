import Mathlib.Logic.Relation
import ScriptBridge.Context.Basic

/-!
# Running operations

The result and the world that an operation leaves, for each way to put operations
together, and operations whose every run is a chain of steps of some kind.
-/

namespace ScriptBridge

namespace Bridge

variable {ε δ α β : Type}

/-- The result of an operation and the world it leaves. -/
def exec (action : Bridge ε α) (world : World) : Except ε α × World := (action.run).run world

@[simp]
theorem exec_pure (value : α) (world : World) :
    exec (pure value : Bridge ε α) world = (.ok value, world) := rfl

@[simp]
theorem exec_throw (error : ε) (world : World) :
    exec (throw error : Bridge ε α) world = (.error error, world) := rfl

theorem exec_bind (action : Bridge ε α) (next : α → Bridge ε β) (world : World) :
    exec (action >>= next) world =
      match exec action world with
      | (.ok value, after) => exec (next value) after
      | (.error error, after) => (.error error, after) := by
  simp only [exec, ExceptT.run_bind, StateT.run_bind]
  cases (action.run).run world with
  | mk result after => cases result <;> rfl

theorem exec_bind_congr {action other : Bridge ε α} {world : World} (same : exec action world = exec other world)
    (next : α → Bridge ε β) : exec (action >>= next) world = exec (other >>= next) world := by
  rw [exec_bind, exec_bind, same]

theorem exec_bind_of_ok {action : Bridge ε α} {value : α} {world after : World}
    (run : exec action world = (.ok value, after)) (next : α → Bridge ε β) :
    exec (action >>= next) world = exec (next value) after := by
  rw [exec_bind, run]

theorem exec_bind_of_error {action : Bridge ε α} {error : ε} {world after : World}
    (run : exec action world = (.error error, after)) (next : α → Bridge ε β) :
    exec (action >>= next) world = (.error error, after) := by
  rw [exec_bind, run]

theorem exec_bind_eq_ok {action : Bridge ε α} {next : α → Bridge ε β} {world last : World} {result : β}
    (run : exec (action >>= next) world = (.ok result, last)) :
    ∃ value middle, exec action world = (.ok value, middle) ∧ exec (next value) middle = (.ok result, last) := by
  rw [exec_bind] at run
  split at run
  next value middle first => exact ⟨value, middle, first, run⟩
  next => cases run

theorem exists_ok_of_isOk {action : Bridge ε α} {world : World} (ok : (exec action world).1.isOk = true) :
    ∃ value, exec action world = (.ok value, (exec action world).2) := by
  cases run : exec action world with
  | mk result after =>
      rw [run] at ok
      cases result with
      | error error => cases ok
      | ok value => exact ⟨value, rfl⟩

/-- A run that succeeds, with something that holds of the world that it leaves. -/
theorem exists_ok_and (action : Bridge ε α) (world : World) (holds : World → Prop)
    (reached : (exec action world).1.isOk = true ∧ holds (exec action world).2) :
    ∃ value after, exec action world = (.ok value, after) ∧ holds after :=
  (exists_ok_of_isOk reached.1).imp fun _ run => ⟨_, run, reached.2⟩

theorem exec_map (change : α → β) (action : Bridge ε α) (world : World) :
    exec (change <$> action) world =
      ((exec action world).1.map change, (exec action world).2) := by
  rw [← bind_pure_comp, exec_bind]
  cases exec action world with
  | mk result after => cases result <;> rfl

theorem exec_discard (action : Bridge ε α) (world : World) :
    exec (discard action) world = ((exec action world).1.map fun _ => (), (exec action world).2) :=
  exec_map _ _ _

theorem exec_discard_eq_ok {action : Bridge ε α} {world after : World}
    (run : exec (discard action) world = (.ok (), after)) : ∃ value, exec action world = (.ok value, after) := by
  rw [exec_discard] at run
  cases inner : exec action world with
  | mk result last =>
      rw [inner] at run
      rcases Prod.mk.inj run with ⟨succeeded, rfl⟩
      cases result with
      | error error => cases succeeded
      | ok value => exact ⟨value, rfl⟩

theorem exec_adapt (change : ε → δ) (action : Bridge ε α) (world : World) :
    exec (ExceptT.adapt change action) world =
      ((exec action world).1.mapError change, (exec action world).2) := rfl

theorem exec_of_adapt_ok {change : ε → δ} {action : Bridge ε α} {value : α} {world after : World}
    (run : exec (ExceptT.adapt change action) world = (.ok value, after)) :
    exec action world = (.ok value, after) := by
  rw [exec_adapt] at run
  cases inner : exec action world with
  | mk result last =>
      rw [inner] at run
      cases result with
      | error error => cases run
      | ok found =>
          rcases Prod.mk.inj run with ⟨same, rfl⟩
          rw [Except.ok.inj same]

@[simp]
theorem exec_get (world : World) : exec (get : Bridge ε World) world = (.ok world, world) := rfl

@[simp]
theorem exec_modify (change : World → World) (world : World) :
    exec (modify change : Bridge ε PUnit) world = (.ok ⟨⟩, change world) := rfl

@[simp]
theorem exec_context (world : World) : exec (context : Bridge ε Context) world = (.ok world.context, world) :=
  rfl

@[simp]
theorem exec_store (world : World) : exec (store : Bridge ε HostStore) world = (.ok world.store, world) :=
  rfl

@[simp]
theorem exec_modifyContext (change : Context → Context) (world : World) :
    exec (modifyContext change : Bridge ε Unit) world =
      (.ok (), { world with context := change world.context }) := rfl

@[simp]
theorem exec_setStore (store : HostStore) (world : World) :
    exec (setStore store : Bridge ε Unit) world = (.ok (), { world with store := store }) := rfl

theorem exec_represent (value : HostValue) (type : TypeRef) (world : World) :
    exec (represent value type : Bridge ε Proxy) world =
      (.ok (world.context.cache.represent value type).1,
        { world with context := { world.context with
            cache := (world.context.cache.represent value type).2 } }) := rfl

@[simp]
theorem exec_ofExcept (result : Except ε α) (world : World) :
    exec (ofExcept result) world = (result, world) := by
  cases result <;> rfl

/-- Every run of an operation is a chain of steps. -/
def Stepwise (step : World → World → Prop) (action : Bridge ε α) : Prop :=
  ∀ world, Relation.ReflTransGen step world (exec action world).2

namespace Stepwise

variable {step finer : World → World → Prop}

theorem mono {action : Bridge ε α} (stepwise : Stepwise finer action)
    (included : ∀ world after, finer world after → step world after) : Stepwise step action :=
  fun world => Relation.ReflTransGen.mono included _ _ (stepwise world)

theorem chain {action : Bridge ε α} {world after : World} {result : Except ε α}
    (stepwise : Stepwise step action) (run : exec action world = (result, after)) :
    Relation.ReflTransGen step world after := by
  have reached := stepwise world
  rwa [run] at reached

theorem pure (value : α) : Stepwise step (Pure.pure value : Bridge ε α) := fun _ => .refl

theorem throw (error : ε) : Stepwise step (MonadExcept.throw error : Bridge ε α) := fun _ => .refl

theorem context : Stepwise step (Bridge.context : Bridge ε Context) := fun _ => .refl

theorem store : Stepwise step (Bridge.store : Bridge ε HostStore) := fun _ => .refl

/-- A chain up to the end of the first part goes on if what follows the result of that part is a chain. -/
theorem chain_bind {action : Bridge ε α} {next : α → Bridge ε β} {start world : World}
    (first : Relation.ReflTransGen step start (exec action world).2)
    (second : ∀ value after, exec action world = (.ok value, after) →
      Relation.ReflTransGen step after (exec (next value) after).2) :
    Relation.ReflTransGen step start (exec (action >>= next) world).2 := by
  rw [exec_bind]
  cases run : exec action world with
  | mk result after =>
      rw [run] at first
      cases result with
      | error error => exact first
      | ok value => exact first.trans (second value after run)

theorem bind {action : Bridge ε α} {next : α → Bridge ε β} (first : Stepwise step action)
    (second : ∀ value, Stepwise step (next value)) : Stepwise step (action >>= next) :=
  fun world => chain_bind (first world) fun value after _ => second value after

theorem map {action : Bridge ε α} (change : α → β) (stepwise : Stepwise step action) :
    Stepwise step (change <$> action) := by
  intro world
  rw [exec_map]
  exact stepwise world

theorem adapt {action : Bridge ε α} (change : ε → δ) (stepwise : Stepwise step action) :
    Stepwise step (ExceptT.adapt change action) := stepwise

theorem discard {action : Bridge ε α} (stepwise : Stepwise step action) :
    Stepwise step (Functor.discard action) := stepwise.map _

theorem modifyContext {change : Context → Context}
    (allowed : ∀ world, step world { world with context := change world.context }) :
    Stepwise step (Bridge.modifyContext change : Bridge ε Unit) :=
  fun world => .single (allowed world)

theorem mapM {next : α → Bridge ε β} (items : List α) (each : ∀ item, Stepwise step (next item)) :
    Stepwise step (items.mapM next) := by
  induction items with
  | nil => exact pure []
  | cons item rest ih =>
      rw [List.mapM_cons]
      exact (each item).bind fun value => ih.bind fun values => pure _

theorem forM {next : α → Bridge ε PUnit} (items : List α) (each : ∀ item, Stepwise step (next item)) :
    Stepwise step (items.forM next) := by
  induction items with
  | nil => exact pure _
  | cons item rest ih =>
      exact (each item).bind fun _ => ih

end Stepwise

end Bridge

end ScriptBridge
