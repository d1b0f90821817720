import ScriptBridge.Proofs.Steps.Handing

/-!
# Members do the same whatever is bound

Two runs have the same outcome if they fail alike, or give results that are alike, and
leave the same host. A member is oblivious of what is bound until it hands out values, and
these are handed out alike. So it has the same outcome whatever is bound, as long as
nothing fails to be bound. The same holds of a placeholder where only another type was
dropped than the one that it waits for.
-/

namespace ScriptBridge

open Bridge

variable {α β γ : Type}

/-- The same failure or results that are related, and the same host. Worlds may differ in what a script has bound. -/
structure SameOutcome (related : IdentityCache → IdentityCache → α → β → Prop)
    (run : Except ScriptError α × World) (other : Except ScriptError β × World) : Prop where
  store : other.2.store = run.2.store
  results : Except.Related (related run.2.context.cache other.2.context.cache) run.1 other.1

/-- The run did not end because something could not be bound. -/
def BindsAll (run : Except ScriptError α × World) : Prop := ∀ cause, run.1 ≠ .error (.ofBindError cause)

/-- The runs have the same outcome unless something could not be bound. -/
def Accord (related : IdentityCache → IdentityCache → α → β → Prop) (run : Except ScriptError α × World)
    (other : Except ScriptError β × World) : Prop :=
  BindsAll run → BindsAll other → SameOutcome related run other

/-- Lists of results that are alike one by one. -/
def ResultsAlike (start left right : IdentityCache) : List ScriptValue → List ScriptValue → Prop :=
  List.Forall₂ (ScriptValue.Alike start left right)

namespace Accord

variable {related : IdentityCache → IdentityCache → α → β → Prop} {final : IdentityCache → IdentityCache → γ → γ → Prop}
  {world other : World}

theorem mono {weaker : IdentityCache → IdentityCache → α → β → Prop} {run : Except ScriptError α × World}
    {otherRun : Except ScriptError β × World} (accord : Accord related run otherRun)
    (implied : ∀ left right value other, related left right value other → weaker left right value other) :
    Accord weaker run otherRun := by
  intro binds otherBinds
  rcases accord binds otherBinds with ⟨store, results⟩
  exact ⟨store, results.mono (implied _ _)⟩

/-- Runs that both give results give related ones. -/
theorem of_toOption {run : Except ScriptError α × World} {otherRun : Except ScriptError β × World} {value : α} {twin : β}
    (accord : Accord related run otherRun) (gives : run.1.toOption = some value)
    (otherGives : otherRun.1.toOption = some twin) :
    related run.2.context.cache otherRun.2.context.cache value twin := by
  rcases run with ⟨result, last⟩
  rcases otherRun with ⟨otherResult, otherLast⟩
  cases result with
  | error error => cases gives
  | ok found =>
      cases otherResult with
      | error error => cases otherGives
      | ok otherFound =>
          obtain rfl := Option.some.inj gives
          obtain rfl := Option.some.inj otherGives
          rcases accord (fun _ failed => nomatch failed) fun _ failed => nomatch failed with ⟨-, results⟩
          cases results with
          | ok holds => exact holds

/-- Runs go on alike from results that are related. -/
theorem bind {action : Bridge ScriptError α} {otherAction : Bridge ScriptError β} {next : α → Bridge ScriptError γ}
    {otherNext : β → Bridge ScriptError γ} (accord : Accord related (exec action world) (exec otherAction other))
    (rest : ∀ value twin last otherLast, related last.context.cache otherLast.context.cache value twin →
      otherLast.store = last.store → Accord final (exec (next value) last) (exec (otherNext twin) otherLast)) :
    Accord final (exec (action >>= next) world) (exec (otherAction >>= otherNext) other) := by
  rw [exec_bind, exec_bind]
  generalize exec action world = run at accord ⊢
  generalize exec otherAction other = otherRun at accord ⊢
  rcases run with ⟨result, last⟩
  rcases otherRun with ⟨otherResult, otherLast⟩
  intro binds otherBinds
  have first : SameOutcome related (result, last) (otherResult, otherLast) := by
    refine accord (fun cause failed => ?_) fun cause failed => ?_
    · obtain rfl : result = _ := failed
      exact binds cause rfl
    · obtain rfl : otherResult = _ := failed
      exact otherBinds cause rfl
  rcases first with ⟨store, results⟩
  cases results with
  | error error => exact ⟨store, .error error⟩
  | ok holds => exact rest _ _ last otherLast holds store binds otherBinds

/-- What is made of results that are related is related. -/
theorem map {action : Bridge ScriptError α} {otherAction : Bridge ScriptError β} {change : α → γ} {otherChange : β → γ}
    (accord : Accord related (exec action world) (exec otherAction other))
    (implied : ∀ left right value twin, related left right value twin → final left right (change value) (otherChange twin)) :
    Accord final (exec (change <$> action) world) (exec (otherChange <$> otherAction) other) := by
  simp only [← bind_pure_comp]
  exact accord.bind fun value twin last otherLast holds store _ _ => ⟨store, .ok (implied _ _ _ _ holds)⟩

/-- The same comes first in two worlds. -/
theorem after {first : Bridge ScriptError α} {next : α → Bridge ScriptError β}
    {related : IdentityCache → IdentityCache → β → β → Prop} (bound : World → World)
    (same : exec first other = ((exec first world).1, bound (exec first world).2))
    (store : ∀ world, (bound world).store = world.store)
    (rest : ∀ value middle, exec first world = (.ok value, middle) →
      Accord related (exec (next value) middle) (exec (next value) (bound middle))) :
    Accord related (exec (first >>= next) world) (exec (first >>= next) other) := by
  rw [exec_bind, exec_bind, same]
  cases run : exec first world with
  | mk result middle =>
      cases result with
      | error error => exact fun _ _ => ⟨store middle, .error error⟩
      | ok value => exact rest value middle run

end Accord

/-- Values are handed out alike whatever else is bound. -/
theorem Host.accord_pushAll {host : Host} {world : World} (values : List HostValue)
    (consistent : world.context.cache.Consistent) (bindings : FinMap TypeRef TypeBinding) (namespaces : NamespaceTree) :
    Accord (ResultsAlike world.context.cache) (exec (host.pushAll values) world)
      (exec (host.pushAll values) (world.rebound bindings namespaces)) := by
  have parted : World.Parted world.context.cache world (world.rebound bindings namespaces) :=
    ⟨rfl, .refl consistent, .refl consistent⟩
  intro binds otherBinds
  cases run : exec (host.pushAll values) world with
  | mk result after =>
      cases otherRun : exec (host.pushAll values) (world.rebound bindings namespaces) with
      | mk otherResult otherAfter =>
          have steps := (binds_pushAll values).chain run
          have otherSteps := (binds_pushAll values).chain otherRun
          rw [run] at binds
          rw [otherRun] at otherBinds
          refine ⟨(parted_of_bindSteps parted steps otherSteps).store, ?_⟩
          cases result with
          | error error =>
              rcases exists_cause_of_pushAll run with ⟨cause, rfl⟩
              exact absurd rfl (binds cause)
          | ok shown =>
              cases otherResult with
              | error error =>
                  rcases exists_cause_of_pushAll otherRun with ⟨cause, rfl⟩
                  exact absurd rfl (otherBinds cause)
              | ok others => exact .ok (alike_of_pushAll parted consistent run otherRun)

/-- A member: what it does first is oblivious of what is bound, and then it hands out values after other results. -/
inductive Yields (host : Host) : Bridge ScriptError (List ScriptValue) → Prop
  | values (plain : List ScriptValue) (noProxy : ∀ value ∈ plain, value.asProxy? = none) (values : List HostValue) :
      Yields host ((plain ++ ·) <$> host.pushAll values)
  | throw (error : ScriptError) : Yields host (throw error)
  | after {α : Type} {first : Bridge ScriptError α} {next : α → Bridge ScriptError (List ScriptValue)}
      (oblivious : Oblivious first) (rest : ∀ value, Yields host (next value)) : Yields host (first >>= next)

namespace Yields

variable {host : Host} {action : Bridge ScriptError (List ScriptValue)}

theorem plain (results : List ScriptValue) (noProxy : ∀ value ∈ results, value.asProxy? = none) :
    Yields host (pure results) := by
  have handed := @Yields.values host results noProxy []
  rwa [Host.pushAll, List.mapM_nil, map_pure, List.append_nil] at handed

theorem nothing : Yields host (pure []) := plain [] fun _ listed => absurd listed List.not_mem_nil

theorem answer (truth : Bool) : Yields host (pure [.boolean truth]) :=
  plain _ fun _ listed => List.mem_singleton.mp listed ▸ rfl

theorem push (plain : List ScriptValue) (noProxy : ∀ value ∈ plain, value.asProxy? = none) (value : HostValue) :
    Yields host (do
      let shown ← Bridge.asScript (host.push value)
      return plain ++ [shown]) := by
  have handed := @Yields.values host plain noProxy [value]
  have same : ((plain ++ ·) <$> host.pushAll [value]) = (do
      let shown ← Bridge.asScript (host.push value)
      return plain ++ [shown]) := by
    rw [Host.pushAll, List.mapM_cons]
    simp
  rwa [same] at handed

theorem one (value : HostValue) : Yields host (do return [← Bridge.asScript (host.push value)]) :=
  push [] (fun _ listed => absurd listed List.not_mem_nil) value

theorem all (values : List HostValue) : Yields host (host.pushAll values) := by
  have handed := @Yields.values host [] (fun _ listed => absurd listed List.not_mem_nil) values
  rwa [show (([] : List ScriptValue) ++ ·) = id from rfl, id_map] at handed

/-- Whatever else is bound, a member has the same outcome. -/
theorem accord (yields : Yields host action) (world : World) (consistent : world.context.cache.Consistent)
    (bindings : FinMap TypeRef TypeBinding) (namespaces : NamespaceTree) :
    Accord (ResultsAlike world.context.cache) (exec action world) (exec action (world.rebound bindings namespaces)) := by
  induction yields generalizing world with
  | values plain noProxy values =>
      refine (Host.accord_pushAll values consistent bindings namespaces).map fun left right shown others alike => ?_
      exact List.rel_append (List.forall₂_same.mpr fun value listed => .same (noProxy value listed)) alike
  | throw error => exact fun _ _ => ⟨rfl, .error error⟩
  | @after α first next oblivious rest ih =>
      refine .after (·.rebound bindings namespaces) ((oblivious bindings namespaces).same world) (fun _ => rfl)
        fun value middle run => ?_
      have survives := (oblivious bindings namespaces).survives world consistent
      rw [run] at survives
      exact (ih value middle survives.consistent).mono fun _ _ _ _ alike =>
        alike.imp fun _ _ each => each.of_survives survives

end Yields

namespace Host

variable {host : Host}

theorem yields_getField (field : Field) (arguments : List ScriptValue) :
    Yields host (host.getField field arguments) := by
  refine .after (oblivious_memberReceiver _ _ _ _) fun target => .after .store fun store => ?_
  split
  · exact .one _
  · exact .throw _

theorem yields_setField (field : Field) (arguments : List ScriptValue) :
    Yields host (host.setField field arguments) := by
  refine .after (oblivious_memberReceiver _ _ _ _) fun target => .after (oblivious_fits _ _) fun fits => ?_
  generalize argumentAt arguments _ = value
  split
  · exact .throw _
  · refine .after (oblivious_toHost _ _) fun converted => .after .store fun store => ?_
    split
    · exact .after (.setStore _) fun _ => .after (oblivious_writeBack _ _) fun _ => .nothing
    · exact .nothing

theorem yields_getItemFrom (owner : TypeRef) (receiver : HostValue × ProxyKey) (key : ScriptValue)
    (properties : List PropertyDef) : Yields host (host.getItemFrom owner receiver key properties) := by
  induction properties with
  | nil => exact .answer false
  | cons property rest ih =>
      rw [getItemFrom]
      split
      · refine .after (oblivious_fits _ _) fun takes => ?_
        split
        · refine .after (oblivious_toHost _ _) fun index => .after (.adapt _ (oblivious_runAccessor _ _ _ _)) fun value => ?_
          exact .push [.boolean true] (fun _ listed => List.mem_singleton.mp listed ▸ rfl) _
        · exact ih
      · exact ih

theorem yields_getItem (owner : TypeRef) (properties : List PropertyDef) (arguments : List ScriptValue) :
    Yields host (host.getItem owner properties arguments) := by
  cases properties with
  | nil => exact .answer false
  | cons first rest => exact .after (oblivious_expectInstance _ _ _) fun _ => yields_getItemFrom _ _ _ _

theorem yields_setItemIn (owner : TypeRef) (receiver : HostValue × ProxyKey) (key item : ScriptValue)
    (properties : List PropertyDef) : Yields host (host.setItemIn owner receiver key item properties) := by
  induction properties with
  | nil => exact .answer false
  | cons property rest ih =>
      rw [setItemIn]
      split
      · refine .after (oblivious_fits _ _) fun takes => ?_
        split
        · refine .after (oblivious_fits _ _) fun fits => ?_
          split
          · exact .throw _
          · refine .after (oblivious_toHost _ _) fun index => .after (oblivious_toHost _ _) fun value => ?_
            exact .after (Oblivious.adapt _ (oblivious_runAccessor _ _ _ _)).discard fun _ => .answer true
        · exact ih
      · exact ih

theorem yields_setItem (owner : TypeRef) (properties : List PropertyDef) (arguments : List ScriptValue) :
    Yields host (host.setItem owner properties arguments) := by
  cases properties with
  | nil => exact .answer false
  | cons first rest => exact .after (oblivious_expectInstance _ _ _) fun _ => yields_setItemIn _ _ _ _ _

theorem yields_changeEvent (owner : TypeRef) (event : EventDef) (arguments : List ScriptValue) :
    Yields host (host.changeEvent owner event arguments) := by
  refine .after (oblivious_memberReceiver _ _ _ _) fun receiver => ?_
  dsimp only
  split
  · exact .throw _
  · split
    · refine .after (oblivious_toHost _ _) fun delegate => ?_
      exact .after (Oblivious.adapt _ (oblivious_runAccessor _ _ _ _)).discard fun _ => .nothing
    · exact .throw _

theorem yields_callGroup (group : OverloadGroup) (arguments : List ScriptValue) :
    Yields host (host.callGroup group arguments) := by
  refine .after (oblivious_resolveOverload _ _) fun candidate => .after (oblivious_hostArguments _ _ _) fun values => ?_
  refine .after (oblivious_receiverFor _ _ _) fun receiver => .after (.adapt _ (oblivious_runNative _ _)) fun completion => ?_
  refine .after (oblivious_writeBack _ _) fun _ => ?_
  split
  · exact .one _
  · exact .all _

theorem yields_constructGroup (group : OverloadGroup) (arguments : List ScriptValue) :
    Yields host (host.constructGroup group arguments) := by
  rw [constructGroup]
  split
  · exact .one _
  · split
    · exact .throw _
    · exact yields_callGroup group arguments

theorem yields_castToEnum (type : TypeRef) (arguments : List ScriptValue) :
    Yields host (host.castToEnum type arguments) := by
  have named : Oblivious (do return host.enumNumber? (← Bridge.context) type (argumentAt arguments 0) :
      Bridge ScriptError (Option Int64)) := by
    refine .context (fun context bindings namespaces => ?_) fun _ => .pure _
    cases argumentAt arguments 0 <;> rfl
  have same : host.castToEnum type arguments = (do
      let number ← (do return host.enumNumber? (← Bridge.context) type (argumentAt arguments 0))
      number.elim (throw (.runtime ("invalid value for enum " ++ host.fullName type))) fun number => do
        return [← Bridge.asScript (host.push (.enumeration type number))]) := by
    rw [castToEnum, bind_assoc]
    refine congrArg _ (funext fun context => ?_)
    rw [pure_bind]
    cases host.enumNumber? context type (argumentAt arguments 0) <;> rfl
  rw [same]
  refine .after named fun number => ?_
  cases number with
  | none => exact .throw _
  | some number => exact .one _

theorem yields_wrapDelegate (type : TypeRef) (arguments : List ScriptValue) :
    Yields host (host.wrapDelegate type arguments) := by
  rw [wrapDelegate]
  split
  · exact .one _
  · exact .throw _

/-- Every member hands out what it found or made obliviously of what is bound. -/
theorem yields_runMember (callable : Callable) (arguments : List ScriptValue) :
    Yields host (host.runMember callable arguments) := by
  cases callable with
  | method group => exact yields_callGroup group arguments
  | fieldGetter field => exact yields_getField field arguments
  | fieldSetter field => exact yields_setField field arguments
  | itemGetter owner properties => exact yields_getItem owner properties arguments
  | itemSetter owner properties => exact yields_setItem owner properties arguments
  | event owner event => exact yields_changeEvent owner event arguments
  | constructor group => exact yields_constructGroup group arguments
  | delegateConstructor type => exact yields_wrapDelegate type arguments
  | enumCast type => exact yields_castToEnum type arguments
  | placeholder member => exact .throw _
  | embedder name body => exact .throw _

end Host

end ScriptBridge
