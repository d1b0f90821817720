import ScriptBridge.Proofs.Foreign.Values
import ScriptBridge.Proofs.Steps.Exec

/-!
# Operations that mirror each other

Two operations mirror each other if in worlds that resemble each other they end in such
worlds again, with the same failure or with results that are related. They also register
no functions of the embedder, so that these stay what they were. The lemmas build pairs of
operations that mirror each other from their parts.
-/

namespace ScriptBridge

open Bridge

variable {swap : KeySwap}

/-- Two reports of the same function: the arguments resemble each other, and so does what the tables held. -/
structure Report.Resembles (swap : KeySwap) (report other : Report) : Prop where
  name : other.name = report.name
  arguments : ResembleAll swap report.arguments other.arguments
  heap : TableHeap.Paired (ScriptValue.Resembles swap) report.context.heap other.context.heap
  rest : other.context = { report.context with heap := other.context.heap }

/-- The worlds are the same but for values in tables and reports that resemble each other. -/
structure World.Resembles (swap : KeySwap) (world other : World) : Prop where
  store : other.store = world.store
  context : world.context.Resembles swap other.context
  reports : List.Forall₂ (Report.Resembles swap) world.reports other.reports

/-- The functions of the embedder in the second context were in the first one. -/
def Context.AddsNoEmbedder (before after : Context) : Prop :=
  ∀ handle name body, after.callable? handle = some (.embedder name body) →
    before.callable? handle = some (.embedder name body)

theorem World.Resembles.refl {world : World} (tag : world.context.cache.tag = swap.own) : world.Resembles swap world := by
  have heaps (heap : TableHeap) : TableHeap.Paired (ScriptValue.Resembles swap) heap heap := .refl .same heap
  exact ⟨rfl, ⟨tag, heaps _, rfl⟩, List.forall₂_same.mpr fun _ _ => ⟨rfl, .refl _, heaps _, rfl⟩⟩

namespace Context.AddsNoEmbedder

variable {before middle after : Context}

theorem of_callables (same : after.callables = before.callables) : before.AddsNoEmbedder after := by
  intro handle name body found
  rwa [callable?, ← same]

theorem trans (first : before.AddsNoEmbedder middle) (second : middle.AddsNoEmbedder after) :
    before.AddsNoEmbedder after :=
  fun handle name body found => first handle name body (second handle name body found)

end Context.AddsNoEmbedder

variable {ε δ α β γ ζ : Type}

/-- From a world, two runs end in worlds that resemble each other, with the same failure or related results. -/
structure EndsAlike (swap : KeySwap) (related : α → β → Prop) (start : World) (run : Except ε α × World)
    (other : Except ε β × World) : Prop where
  worlds : run.2.Resembles swap other.2
  results : Except.Related related run.1 other.1
  embedders : start.context.AddsNoEmbedder run.2.context

/-- The two operations cannot be told apart from what they do to worlds that resemble each other. -/
def Mirrors (swap : KeySwap) (related : α → β → Prop) (action : Bridge ε α) (other : Bridge ε β) : Prop :=
  ∀ world twin, world.Resembles swap twin → EndsAlike swap related world (exec action world) (exec other twin)

/-- The operation does the same in worlds that resemble each other. -/
def Blind (swap : KeySwap) (action : Bridge ε α) : Prop := Mirrors swap Eq action action

namespace EndsAlike

variable {related : α → β → Prop} {final : γ → ζ → Prop} {world twin : World} {action : Bridge ε α} {other : Bridge ε β}

theorem pure (worlds : world.Resembles swap twin) {value : α} {otherValue : β} (holds : related value otherValue) :
    EndsAlike swap related world (exec (Pure.pure value : Bridge ε α) world)
      (exec (Pure.pure otherValue : Bridge ε β) twin) :=
  ⟨worlds, .ok holds, .of_callables rfl⟩

theorem throw (worlds : world.Resembles swap twin) (error : ε) :
    EndsAlike swap related world (exec (MonadExcept.throw error : Bridge ε α) world)
      (exec (MonadExcept.throw error : Bridge ε β) twin) :=
  ⟨worlds, .error error, .of_callables rfl⟩

theorem bind {next : α → Bridge ε γ} {otherNext : β → Bridge ε ζ}
    (first : EndsAlike swap related world (exec action world) (exec other twin))
    (second : ∀ value otherValue middle otherMiddle, exec action world = (.ok value, middle) →
      middle.Resembles swap otherMiddle → world.context.AddsNoEmbedder middle.context → related value otherValue →
      EndsAlike swap final middle (exec (next value) middle) (exec (otherNext otherValue) otherMiddle)) :
    EndsAlike swap final world (exec (action >>= next) world) (exec (other >>= otherNext) twin) := by
  rcases first with ⟨worlds, results, embedders⟩
  cases run : exec action world with
  | mk result middle =>
      cases otherRun : exec other twin with
      | mk otherResult otherMiddle =>
          rw [run, otherRun] at worlds results
          rw [run] at embedders
          cases results with
          | error error =>
              rw [exec_bind_of_error run, exec_bind_of_error otherRun]
              exact ⟨worlds, .error error, embedders⟩
          | ok holds =>
              rw [exec_bind_of_ok run, exec_bind_of_ok otherRun]
              have rest := second _ _ middle otherMiddle run worlds embedders holds
              exact ⟨rest.worlds, rest.results, embedders.trans rest.embedders⟩

theorem adapt (change : ε → δ) (alike : EndsAlike swap related world (exec action world) (exec other twin)) :
    EndsAlike swap related world (exec (ExceptT.adapt change action) world)
      (exec (ExceptT.adapt change other) twin) := by
  rw [exec_adapt, exec_adapt]
  exact ⟨alike.worlds, alike.results.mapError change, alike.embedders⟩

theorem mono {weaker : α → β → Prop} {run : Except ε α × World} {otherRun : Except ε β × World}
    (alike : EndsAlike swap related world run otherRun)
    (implied : ∀ value otherValue, related value otherValue → weaker value otherValue) :
    EndsAlike swap weaker world run otherRun :=
  ⟨alike.worlds, alike.results.mono implied, alike.embedders⟩

theorem map {change : α → γ} {otherChange : β → ζ}
    (alike : EndsAlike swap related world (exec action world) (exec other twin))
    (implied : ∀ value otherValue, related value otherValue → final (change value) (otherChange otherValue)) :
    EndsAlike swap final world (exec (change <$> action) world) (exec (otherChange <$> other) twin) := by
  simp only [← bind_pure_comp]
  exact alike.bind fun _ _ _ _ _ worlds _ holds => .pure worlds (implied _ _ holds)

end EndsAlike

namespace Mirrors

variable {related : α → β → Prop} {final : γ → ζ → Prop} {action : Bridge ε α} {other : Bridge ε β}

theorem pure {value : α} {otherValue : β} (holds : related value otherValue) :
    Mirrors swap related (Pure.pure value : Bridge ε α) (Pure.pure otherValue) :=
  fun _ _ worlds => .pure worlds holds

theorem throw (error : ε) :
    Mirrors swap related (MonadExcept.throw error : Bridge ε α) (MonadExcept.throw error : Bridge ε β) :=
  fun _ _ worlds => .throw worlds error

theorem bind {next : α → Bridge ε γ} {otherNext : β → Bridge ε ζ} (first : Mirrors swap related action other)
    (second : ∀ value otherValue, related value otherValue → Mirrors swap final (next value) (otherNext otherValue)) :
    Mirrors swap final (action >>= next) (other >>= otherNext) :=
  fun world twin worlds => (first world twin worlds).bind fun value otherValue _ _ _ worlds _ holds =>
    second value otherValue holds _ _ worlds

/-- What comes first has the same result in both. -/
theorem after {action other : Bridge ε α} {next : α → Bridge ε γ} {otherNext : α → Bridge ε ζ}
    (first : Mirrors swap Eq action other) (second : ∀ value, Mirrors swap final (next value) (otherNext value)) :
    Mirrors swap final (action >>= next) (other >>= otherNext) :=
  first.bind fun value _ same => same ▸ second value

theorem adapt (change : ε → δ) (mirrors : Mirrors swap related action other) :
    Mirrors swap related (ExceptT.adapt change action) (ExceptT.adapt change other) :=
  fun world twin worlds => (mirrors world twin worlds).adapt change

theorem map {change : α → γ} {otherChange : β → ζ} (mirrors : Mirrors swap related action other)
    (implied : ∀ value otherValue, related value otherValue → final (change value) (otherChange otherValue)) :
    Mirrors swap final (change <$> action) (otherChange <$> other) :=
  fun world twin worlds => (mirrors world twin worlds).map implied

theorem discard (mirrors : Mirrors swap related action other) :
    Mirrors swap Eq (Functor.discard action) (Functor.discard other) :=
  mirrors.map fun _ _ _ => rfl

theorem asScript {action other : Bridge BindError α} (mirrors : Mirrors swap Eq action other) :
    Mirrors swap Eq (Bridge.asScript action) (Bridge.asScript other) :=
  mirrors.adapt _

theorem ofExcept {result : Except ε α} {otherResult : Except ε β}
    (results : Except.Related related result otherResult) :
    Mirrors swap related (Bridge.ofExcept result) (Bridge.ofExcept otherResult) := by
  cases results with
  | error error => exact throw error
  | ok holds => exact pure holds

theorem context {next : Context → Bridge ε γ} {otherNext : Context → Bridge ε ζ}
    (second : ∀ context twin, context.Resembles swap twin → Mirrors swap final (next context) (otherNext twin)) :
    Mirrors swap final (Bridge.context >>= next) (Bridge.context >>= otherNext) := by
  intro world twin worlds
  rw [exec_bind_of_ok (exec_context world), exec_bind_of_ok (exec_context twin)]
  exact second _ _ worlds.context _ _ worlds

theorem store {next : HostStore → Bridge ε γ} {otherNext : HostStore → Bridge ε ζ}
    (second : ∀ store, Mirrors swap final (next store) (otherNext store)) :
    Mirrors swap final (Bridge.store >>= next) (Bridge.store >>= otherNext) := by
  intro world twin worlds
  rw [exec_bind_of_ok (exec_store world), exec_bind_of_ok (exec_store twin), worlds.store]
  exact second _ _ _ worlds

theorem modifyContext {change otherChange : Context → Context}
    (resembles : ∀ context twin, context.Resembles swap twin → (change context).Resembles swap (otherChange twin))
    (embedders : ∀ context : Context, context.AddsNoEmbedder (change context)) :
    Mirrors swap Eq (Bridge.modifyContext change : Bridge ε Unit) (Bridge.modifyContext otherChange) :=
  fun world _ worlds => ⟨⟨worlds.store, resembles _ _ worlds.context, worlds.reports⟩, .ok rfl, embedders world.context⟩

theorem report (name : String) {arguments twins : List ScriptValue} (resemble : ResembleAll swap arguments twins) :
    Mirrors swap Eq (Bridge.report name arguments : Bridge ε Unit) (Bridge.report name twins) :=
  fun world twin worlds =>
    have made : Report.Resembles swap ⟨name, arguments, world.context⟩ ⟨name, twins, twin.context⟩ :=
      ⟨rfl, resemble, worlds.context.heap, worlds.context.rest⟩
    ⟨⟨worlds.store, worlds.context, List.rel_append worlds.reports (.cons made .nil)⟩, .ok rfl, .of_callables rfl⟩

theorem mapM {paired : γ → ζ → Prop} {next : γ → Bridge ε α} {otherNext : ζ → Bridge ε β} {items : List γ}
    {others : List ζ} (pairs : List.Forall₂ paired items others)
    (each : ∀ item otherItem, paired item otherItem → Mirrors swap related (next item) (otherNext otherItem)) :
    Mirrors swap (List.Forall₂ related) (items.mapM next) (others.mapM otherNext) := by
  induction pairs with
  | nil => exact pure .nil
  | cons first _ ih =>
      rw [List.mapM_cons, List.mapM_cons]
      exact (each _ _ first).bind fun _ _ holds => ih.bind fun _ _ rest => pure (.cons holds rest)

end Mirrors

namespace Blind

theorem pure (value : α) : Blind swap (Pure.pure value : Bridge ε α) := Mirrors.pure rfl

theorem throw (error : ε) : Blind swap (MonadExcept.throw error : Bridge ε α) := Mirrors.throw error

theorem ofExcept (result : Except ε α) : Blind swap (Bridge.ofExcept result) := by
  cases result with
  | error error => exact throw error
  | ok value => exact pure value

theorem bind {action : Bridge ε α} {next : α → Bridge ε β} (first : Blind swap action)
    (second : ∀ value, Blind swap (next value)) : Blind swap (action >>= next) :=
  Mirrors.after first second

theorem discard {action : Bridge ε α} (blind : Blind swap action) : Blind swap (Functor.discard action) :=
  Mirrors.discard blind

theorem asScript {action : Bridge BindError α} (blind : Blind swap action) : Blind swap (Bridge.asScript action) :=
  Mirrors.asScript blind

theorem store {next : HostStore → Bridge ε β} (second : ∀ store, Blind swap (next store)) :
    Blind swap (Bridge.store >>= next) :=
  Mirrors.store second

theorem setStore (store : HostStore) : Blind swap (Bridge.setStore store : Bridge ε Unit) :=
  fun _ _ worlds => ⟨⟨rfl, worlds.context, worlds.reports⟩, .ok rfl, .of_callables rfl⟩

/-- What is changed outside of the tables is changed alike. -/
theorem modifyContext {change : Context → Context}
    (commutes : ∀ (context : Context) heap, change { context with heap := heap } = { change context with heap := heap })
    (tag : ∀ context : Context, (change context).cache.tag = context.cache.tag)
    (embedders : ∀ context : Context, context.AddsNoEmbedder (change context)) :
    Blind swap (Bridge.modifyContext change : Bridge ε Unit) :=
  Mirrors.modifyContext (fun context _ resembles => resembles.change (commutes context) (tag context)) embedders

/-- Of the context only what both worlds share is looked at. -/
theorem context {next : Context → Bridge ε β}
    (looks : ∀ context heap, next { context with heap := heap } = next context)
    (second : ∀ context, Blind swap (next context)) : Blind swap (Bridge.context >>= next) := by
  refine Mirrors.context fun context twin resembles => ?_
  have same : next twin = next context := (congrArg next resembles.rest).trans (looks context twin.heap)
  rw [same]
  exact second context

theorem mapM {next : α → Bridge ε β} (items : List α) (each : ∀ item, Blind swap (next item)) :
    Blind swap (items.mapM next) := by
  have pairs : List.Forall₂ Eq items items := List.forall₂_same.mpr fun _ _ => rfl
  have mirrors : Mirrors swap (List.Forall₂ Eq) (items.mapM next) (items.mapM next) := by
    refine .mapM pairs fun item other same => ?_
    rcases same with rfl
    exact each item
  rwa [List.forall₂_eq_eq_eq] at mirrors

theorem forM {next : α → Bridge ε PUnit} (items : List α) (each : ∀ item, Blind swap (next item)) :
    Blind swap (items.forM next) := by
  induction items with
  | nil => exact .pure _
  | cons item rest ih => exact bind (each item) fun _ => ih

end Blind

end ScriptBridge
