import ScriptBridge.Proofs.Conversion.Choice
import ScriptBridge.Proofs.Related
import ScriptBridge.Proofs.Steps.Installing

/-!
# Parallel worlds

Making a member at its first use adds a callable and fills a slot, and nothing that
conversions, native code or the binding of types look at. So worlds that differ in such
uses stay side by side when the same is done in both: the host state and the proxies stay
the same, and so does what is handed out. Only the room for callables may end in one of
them before it does in the other.
-/

namespace ScriptBridge

open Bridge

/-- The same value, or two functions. -/
inductive ScriptValue.Parallels : ScriptValue → ScriptValue → Prop
  | same (value : ScriptValue) : Parallels value value
  | functions (handle other : CallableHandle) : Parallels (.function handle) (.function other)

theorem ScriptValue.Parallels.likeness : Likeness Parallels where
  nil := .same _
  table _ := .same _
  isNil_eq alike := by cases alike <;> rfl
  asTable?_eq alike := by cases alike <;> rfl

/-- The contexts differ at most in callables, in functions in tables, in the slots of bound types, and in counters. -/
structure Context.Parallels (host : Host) (context twin : Context) : Prop where
  config : twin.config = context.config
  cache : twin.cache = context.cache
  namespaces : twin.namespaces = context.namespaces
  heap : TableHeap.Paired ScriptValue.Parallels context.heap twin.heap
  tables : ∀ type, (twin.binding? type).map (·.classTable) = (context.binding? type).map (·.classTable)
  extensions : host.extensionsIn twin = host.extensionsIn context

structure World.Parallels (host : Host) (world twin : World) : Prop where
  store : twin.store = world.store
  reports : twin.reports = world.reports
  context : world.context.Parallels host twin.context

variable {host : Host} {ε δ α β γ ζ : Type} [BindingFailure ε] [BindingFailure δ]

/-- The run failed because its context can take no more callables. -/
def RunsOut (run : Except ε α × World) : Prop :=
  (∃ error, run.1 = .error error ∧ BindingFailure.tells error .callableLimit) ∧
    UInt32.size ≤ run.2.context.callables.size

/-- The runs end in parallel worlds and with related results, unless one of them runs out of room for callables. -/
def EndsParallel (host : Host) (related : α → β → Prop) (run : Except ε α × World) (other : Except ε β × World) :
    Prop :=
  RunsOut run ∨ RunsOut other ∨ run.2.Parallels host other.2 ∧ Except.Related related run.1 other.1

/-- From parallel worlds the two operations come to parallel worlds and to related results. -/
def KeepsPace (host : Host) (related : α → β → Prop) (action : Bridge ε α) (other : Bridge ε β) : Prop :=
  ∀ world twin, world.Parallels host twin → EndsParallel host related (exec action world) (exec other twin)

/-- The operation does the same in parallel worlds. -/
abbrev Steady (host : Host) (action : Bridge ε α) : Prop := KeepsPace host Eq action action

namespace Context.Parallels

variable {context twin : Context} (parallels : context.Parallels host twin)

include parallels

theorem isBound_eq (type : TypeRef) : twin.isBound type = context.isBound type := by
  have same := congrArg Option.isSome (parallels.tables type)
  rwa [Option.isSome_map, Option.isSome_map] at same

theorem compatibility_eq (value : ScriptValue) (type : TypeRef) :
    twin.compatibility host.system value type = context.compatibility host.system value type := by
  simp only [compatibility, objectCompatibility, proxyCompatibility, parallels.cache, parallels.heap.typeOf?_eq]

theorem fits_eq (value : ScriptValue) (type : TypeRef) :
    twin.fits host.system value type = context.fits host.system value type := by
  rw [fits, fits, parallels.compatibility_eq]

theorem choose?_eq (group : OverloadGroup) (arguments : List ScriptValue) :
    twin.choose? host.system group arguments = context.choose? host.system group arguments :=
  choose?_congr (List.forall₂_same.mpr fun value _ => parallels.compatibility_eq value) group

theorem toHost_eq (value : ScriptValue) (type : TypeRef) :
    twin.toHost host.system value type = context.toHost host.system value type := by
  simp only [toHost, parallels.cache, parallels.heap.typeOf?_eq]

/-- A change of the bindings that leaves the tables of bound types in place. -/
theorem modifyBinding {change twinChange : TypeBinding → TypeBinding} (type : TypeRef)
    (keeps : ∀ binding, (change binding).classTable = binding.classTable)
    (twinKeeps : ∀ binding, (twinChange binding).classTable = binding.classTable) :
    (context.modifyBinding type change).Parallels host (twin.modifyBinding type twinChange) := by
  have sameTables (context : Context) {change : TypeBinding → TypeBinding}
      (keeps : ∀ binding, (change binding).classTable = binding.classTable) (other : TypeRef) :
      ((context.modifyBinding type change).binding? other).map (·.classTable) =
        (context.binding? other).map (·.classTable) := by
    rw [binding?_modifyBinding]
    split
    next same =>
      subst same
      rw [Option.map_map]
      exact congrArg (fun table => (context.binding? other).map table) (funext keeps)
    next => rfl
  have tables (other : TypeRef) : ((twin.modifyBinding type twinChange).binding? other).map (·.classTable) =
      ((context.modifyBinding type change).binding? other).map (·.classTable) := by
    rw [sameTables twin twinKeeps, sameTables context keeps, parallels.tables]
  rw [context.modifyBinding_eq, twin.modifyBinding_eq] at tables ⊢
  exact { parallels with tables := tables }

end Context.Parallels

theorem RunsOut.bind {action : Bridge ε α} {world : World} (out : RunsOut (exec action world)) (next : α → Bridge ε β) :
    RunsOut (exec (action >>= next) world) := by
  rcases out with ⟨⟨error, failed, tells⟩, full⟩
  have run : exec action world = (.error error, (exec action world).2) := Prod.ext failed rfl
  rw [exec_bind_of_error run]
  exact ⟨⟨error, rfl, tells⟩, full⟩

namespace KeepsPace

variable {related : α → β → Prop} {final : γ → ζ → Prop} {action : Bridge ε α} {other : Bridge ε β}

theorem pure {value : α} {otherValue : β} (holds : related value otherValue) :
    KeepsPace host related (Pure.pure value : Bridge ε α) (Pure.pure otherValue) :=
  fun _ _ worlds => .inr (.inr ⟨worlds, .ok holds⟩)

theorem throw (error : ε) :
    KeepsPace host related (MonadExcept.throw error : Bridge ε α) (MonadExcept.throw error : Bridge ε β) :=
  fun _ _ worlds => .inr (.inr ⟨worlds, .error error⟩)

theorem bind {next : α → Bridge ε γ} {otherNext : β → Bridge ε ζ} (first : KeepsPace host related action other)
    (second : ∀ value otherValue, related value otherValue → KeepsPace host final (next value) (otherNext otherValue)) :
    KeepsPace host final (action >>= next) (other >>= otherNext) := by
  intro world twin parallels
  rcases first world twin parallels with out | out | ⟨worlds, results⟩
  · exact .inl (out.bind next)
  · exact .inr (.inl (out.bind otherNext))
  · cases run : exec action world with
    | mk result middle =>
        cases otherRun : exec other twin with
        | mk otherResult otherMiddle =>
            rw [run, otherRun] at worlds results
            cases results with
            | error error =>
                rw [exec_bind_of_error run, exec_bind_of_error otherRun]
                exact .inr (.inr ⟨worlds, .error error⟩)
            | ok holds =>
                rw [exec_bind_of_ok run, exec_bind_of_ok otherRun]
                exact second _ _ holds _ _ worlds

/-- What comes first has the same result in both. -/
theorem after {action other : Bridge ε α} {next : α → Bridge ε γ} {otherNext : α → Bridge ε ζ}
    (first : KeepsPace host Eq action other)
    (second : ∀ value, KeepsPace host final (next value) (otherNext value)) :
    KeepsPace host final (action >>= next) (other >>= otherNext) :=
  first.bind fun value _ same => same ▸ second value

theorem context {next : Context → Bridge ε γ} {otherNext : Context → Bridge ε ζ}
    (second : ∀ context twin, context.Parallels host twin → KeepsPace host final (next context) (otherNext twin)) :
    KeepsPace host final (Bridge.context >>= next) (Bridge.context >>= otherNext) := by
  intro world twin worlds
  rw [exec_bind_of_ok (exec_context world), exec_bind_of_ok (exec_context twin)]
  exact second _ _ worlds.context _ _ worlds

theorem store {next : HostStore → Bridge ε γ} {otherNext : HostStore → Bridge ε ζ}
    (second : ∀ store, KeepsPace host final (next store) (otherNext store)) :
    KeepsPace host final (Bridge.store >>= next) (Bridge.store >>= otherNext) := by
  intro world twin worlds
  rw [exec_bind_of_ok (exec_store world), exec_bind_of_ok (exec_store twin), worlds.store]
  exact second _ _ _ worlds

theorem ofExcept {result : Except ε α} {otherResult : Except ε β}
    (results : Except.Related related result otherResult) :
    KeepsPace host related (Bridge.ofExcept result) (Bridge.ofExcept otherResult) := by
  intro world twin worlds
  rw [exec_ofExcept, exec_ofExcept]
  exact .inr (.inr ⟨worlds, results⟩)

theorem modifyContext {change otherChange : Context → Context}
    (parallels : ∀ context twin, context.Parallels host twin → (change context).Parallels host (otherChange twin)) :
    KeepsPace host Eq (Bridge.modifyContext change : Bridge ε Unit) (Bridge.modifyContext otherChange) :=
  fun _ _ worlds => .inr (.inr ⟨⟨worlds.store, worlds.reports, parallels _ _ worlds.context⟩, .ok rfl⟩)

theorem adapt {change : ε → δ}
    (told : ∀ error, BindingFailure.tells error .callableLimit → BindingFailure.tells (change error) .callableLimit)
    (keeps : KeepsPace host related action other) :
    KeepsPace host related (ExceptT.adapt change action) (ExceptT.adapt change other) := by
  have outToo {θ : Type} {run : Except ε θ × World} (out : RunsOut run) : RunsOut (run.1.mapError change, run.2) := by
    rcases out with ⟨⟨error, failed, tells⟩, full⟩
    exact ⟨⟨change error, congrArg (Except.mapError change) failed, told error tells⟩, full⟩
  intro world twin worlds
  rw [exec_adapt, exec_adapt]
  rcases keeps world twin worlds with out | out | ⟨after, results⟩
  · exact .inl (outToo out)
  · exact .inr (.inl (outToo out))
  · exact .inr (.inr ⟨after, results.mapError change⟩)

theorem asScript {action other : Bridge BindError γ} (keeps : KeepsPace host Eq action other) :
    KeepsPace host Eq (Bridge.asScript action) (Bridge.asScript other) :=
  keeps.adapt fun _ => congrArg ScriptError.ofBindError

theorem discard (keeps : KeepsPace host related action other) :
    KeepsPace host Eq (Functor.discard action) (Functor.discard other) := by
  have unit : KeepsPace host Eq (action >>= fun _ => Pure.pure ()) (other >>= fun _ => Pure.pure ()) :=
    keeps.bind fun _ _ _ => .pure rfl
  rwa [bind_pure_comp, bind_pure_comp] at unit

theorem mapM {next : γ → Bridge ε α} {otherNext : γ → Bridge ε β} (items : List γ)
    (each : ∀ item, KeepsPace host related (next item) (otherNext item)) :
    KeepsPace host (List.Forall₂ related) (items.mapM next) (items.mapM otherNext) := by
  induction items with
  | nil => exact pure .nil
  | cons item rest ih =>
      rw [List.mapM_cons, List.mapM_cons]
      exact (each item).bind fun _ _ holds => ih.bind fun _ _ others => pure (.cons holds others)

end KeepsPace

namespace Steady

theorem setStore (store : HostStore) : Steady host (Bridge.setStore store : Bridge ε Unit) :=
  fun _ _ worlds => .inr (.inr ⟨⟨rfl, worlds.reports, worlds.context⟩, .ok rfl⟩)

theorem ofExcept (result : Except ε α) : Steady host (Bridge.ofExcept result) := by
  cases result with
  | error error => exact .throw error
  | ok value => exact .pure rfl

theorem mapM {next : α → Bridge ε β} (items : List α) (each : ∀ item, Steady host (next item)) :
    Steady host (items.mapM next) := by
  have keeps : KeepsPace host (List.Forall₂ Eq) (items.mapM next) (items.mapM next) := .mapM items each
  rwa [List.forall₂_eq_eq_eq] at keeps

theorem forM {next : α → Bridge ε PUnit} (items : List α) (each : ∀ item, Steady host (next item)) :
    Steady host (items.forM next) := by
  induction items with
  | nil => exact .pure rfl
  | cons item rest ih => exact .after (each item) fun _ => ih

theorem count (change : BindingCounters → BindingCounters) : Steady host (Bridge.count change : Bridge ε Unit) :=
  .modifyContext fun _ _ parallels => { parallels with }

theorem represent (value : HostValue) (type : TypeRef) :
    Steady host (Bridge.represent value type : Bridge ε Proxy) := by
  intro world twin worlds
  rw [exec_represent, exec_represent, worlds.context.cache]
  exact .inr (.inr ⟨⟨worlds.store, worlds.reports, { worlds.context with cache := rfl }⟩, .ok rfl⟩)

end Steady

/-- Which callable is registered does not matter, nor what handle it gets. -/
theorem keepsPace_register (callable other : Callable) :
    KeepsPace host (fun _ _ => True) (Bridge.register callable) (Bridge.register other) := by
  have full {world : World} (full : UInt32.size ≤ world.context.callables.size) (callable : Callable) :
      RunsOut (exec (Bridge.register callable) world) := by
    rw [Host.exec_register_of_full full]
    exact ⟨⟨_, rfl, rfl⟩, full⟩
  intro world twin worlds
  rcases Nat.lt_or_ge world.context.callables.size UInt32.size with room | noRoom
  · rcases Nat.lt_or_ge twin.context.callables.size UInt32.size with otherRoom | noRoom
    · rw [Host.exec_register_of_room room, Host.exec_register_of_room otherRoom]
      exact .inr (.inr ⟨⟨worlds.store, worlds.reports, { worlds.context with }⟩, .ok trivial⟩)
    · exact .inr (.inl (full noRoom other))
  · exact .inl (full noRoom callable)

theorem keepsPace_writeEntry (table : TableId) (name : String) {value other : ScriptValue}
    (parallels : value.Parallels other) :
    KeepsPace host Eq (Bridge.writeEntry table name value : Bridge ε Unit) (Bridge.writeEntry table name other) :=
  .modifyContext fun _ _ contexts =>
    { contexts with heap := contexts.heap.set ScriptValue.Parallels.likeness table (.string name) parallels }

/-- The table of a bound type stays, whatever else of its binding is changed. -/
theorem keepsPace_rebind {change otherChange : TypeBinding → TypeBinding} (type : TypeRef)
    (keeps : ∀ binding, (change binding).classTable = binding.classTable)
    (otherKeeps : ∀ binding, (otherChange binding).classTable = binding.classTable) :
    KeepsPace host Eq (Bridge.modifyContext fun context => context.modifyBinding type change : Bridge ε Unit)
      (Bridge.modifyContext fun context => context.modifyBinding type otherChange) :=
  .modifyContext fun _ _ contexts => contexts.modifyBinding type keeps otherKeeps

namespace Host

theorem steady_extensionMap : Steady host (host.extensionMap : Bridge ε (Option ExtensionMap)) := by
  have asked (world : World) : ∃ extensions, host.withExtensions world =
      { world with context := { world.context with extensions := extensions } } := by
    rw [withExtensions]
    split <;> exact ⟨_, rfl⟩
  have known (world : World) : host.extensionsIn (host.withExtensions world).context = host.extensionsIn world.context :=
    extensionsIn_eq_of_bindSteps ((binds_extensionMap (ε := ε)).chain (host.exec_extensionMap world))
  intro world twin worlds
  have here := known world
  have there := known twin
  rw [exec_extensionMap, exec_extensionMap, worlds.context.extensions]
  rcases asked world with ⟨_, same⟩
  rcases asked twin with ⟨_, twinSame⟩
  rw [same] at here ⊢
  rw [twinSame] at there ⊢
  have extensions := there.trans (worlds.context.extensions.trans here.symm)
  exact .inr (.inr ⟨⟨worlds.store, worlds.reports, { worlds.context with extensions := extensions }⟩, .ok rfl⟩)

/-- The slot for a member has a handle of its own in each context. -/
theorem keepsPace_installMember (type : TypeRef) (access : MemberAccess) (mode : BindingMode) (member : CatalogMember) :
    KeepsPace host (fun _ _ => True) (host.installMember type access mode member)
      (host.installMember type access mode member) := by
  cases mode with
  | eager =>
      exact (Steady.count _).after fun _ => (keepsPace_register _ _).bind fun _ _ _ => .pure trivial
  | «lazy» => exact (keepsPace_register _ _).bind fun _ _ _ => .pure trivial

theorem keepsPace_installItems (type : TypeRef) (indexers : List PropertyDef) :
    KeepsPace host (fun _ _ => True) (installItems type indexers) (installItems type indexers) := by
  rw [installItems]
  split
  · exact .pure trivial
  · exact (keepsPace_register _ _).bind fun _ _ _ => (keepsPace_register _ _).bind fun _ _ _ => .pure trivial

theorem steady_installConstructor (type : TypeRef) : Steady host (host.installConstructor type) := by
  rw [installConstructor]
  split
  · exact .pure rfl
  · refine (keepsPace_register _ _).bind fun _ _ _ => .context fun context twin parallels => ?_
    rw [parallels.isBound_eq]
    split
    · exact .throw _
    · exact keepsPace_rebind type (fun _ => rfl) fun _ => rfl

theorem steady_openBinding (type : TypeRef) (mode : BindingMode) : Steady host (host.openBinding type mode) := by
  refine .context fun context twin parallels => ?_
  have placed :=
    NamespaceTree.paired_place ScriptValue.Parallels.likeness host.system context.namespaces type parallels.heap
  rw [parallels.namespaces]
  have made : KeepsPace host _ (Bridge.ofExcept (context.namespaces.place host.system context.heap type))
      (Bridge.ofExcept (context.namespaces.place host.system twin.heap type)) := .ofExcept placed
  refine made.bind fun opened other same => ?_
  rcases opened with ⟨table, namespaces, heap⟩
  rcases other with ⟨otherTable, otherNamespaces, otherHeap⟩
  rcases same with ⟨rfl, rfl, heaps⟩
  refine .after (.modifyContext fun context twin parallels => ?_) fun _ => .pure rfl
  refine { parallels with namespaces := rfl, heap := heaps, tables := fun other => ?_ }
  rw [Context.binding?, Context.binding?, FinMap.get?_insert, FinMap.get?_insert]
  split
  · rfl
  · exact parallels.tables other

section Binders

variable {bind : Binder} (steady : ∀ type access mode, Steady host (bind type access mode))

include steady

theorem steady_ensureBoundBy (type : TypeRef) : Steady host (ensureBoundBy bind type) := by
  refine .context fun context twin parallels => ?_
  rw [parallels.isBound_eq, parallels.config]
  split
  · exact (steady _ _ _).discard
  · exact .pure rfl

theorem steady_pushBy (value : HostValue) : Steady host (pushBy bind value) := by
  rw [pushBy]
  split
  · exact .pure rfl
  · refine .store fun store => ?_
    split
    · exact .throw _
    · exact (steady_ensureBoundBy steady _).after fun _ => (Steady.represent _ _).after fun _ => .pure rfl

theorem steady_installConstants (table : TableId) (constants : List (String × HostValue)) :
    Steady host (installConstants bind table constants) :=
  Steady.forM constants fun _ => (steady_pushBy steady _).after fun _ => keepsPace_writeEntry _ _ (.same _)

theorem steady_installMembers (type : TypeRef) (access : MemberAccess) (mode : BindingMode) :
    Steady host (host.installMembers bind type access mode) := by
  refine .context fun context twin parallels => ?_
  rw [parallels.namespaces]
  split
  · exact .throw _
  · refine .after steady_extensionMap fun extensions => .store fun store => ?_
    refine .after (steady_installConstants steady _ _) fun _ => ?_
    refine (KeepsPace.mapM _ (keepsPace_installMember type access mode)).bind fun _ _ _ => ?_
    have operators (entry : Operator × List Method) : KeepsPace host (fun _ _ => True)
        (do return (entry.1, ← Bridge.register (.ofOperator host.system type entry.1 entry.2)))
        (do return (entry.1, ← Bridge.register (.ofOperator host.system type entry.1 entry.2))) :=
      (keepsPace_register _ _).bind fun _ _ _ => .pure trivial
    refine (KeepsPace.mapM _ operators).bind fun _ _ _ => (keepsPace_installItems type _).bind fun _ _ _ => ?_
    refine .context fun context twin parallels => ?_
    rw [parallels.isBound_eq]
    split
    · exact .throw _
    · exact keepsPace_rebind type (fun _ => rfl) fun _ => rfl

theorem steady_installEnumeration (type : TypeRef) (table : TableId) :
    Steady host (host.installEnumeration bind type table) := by
  rw [installEnumeration]
  split
  · refine .after (Steady.forM _ fun member => ?_) fun _ => ?_
    · exact (steady_pushBy steady _).after fun _ => keepsPace_writeEntry _ _ (.same _)
    · exact (keepsPace_register _ _).bind fun cast other _ => keepsPace_writeEntry _ _ (.functions cast other)
  · exact .pure rfl

theorem steady_bindBase (type : TypeRef) (access : MemberAccess) (mode : BindingMode) :
    Steady host (host.bindBase bind type access mode) := by
  rw [bindBase]
  split
  · exact (steady _ _ _).discard
  · exact .pure rfl

theorem steady_bindNested (type : TypeRef) (access : MemberAccess) (mode : BindingMode) :
    Steady host (host.bindNested bind type access mode) := by
  refine .context fun context twin parallels => ?_
  rw [parallels.config]
  split
  · exact Steady.forM _ fun nested => (steady _ _ _).discard
  · exact .pure rfl

theorem steady_bindAnew (type : TypeRef) (access : MemberAccess) (mode : BindingMode) :
    Steady host (host.bindAnew bind type access mode) := by
  refine .after (steady_bindBase steady type access mode) fun _ => .after (steady_openBinding type mode) fun table => ?_
  refine .after (steady_installMembers steady type access mode) fun _ => .after (steady_pushBy steady _) fun _ => ?_
  refine .after (keepsPace_writeEntry _ _ (.same _)) fun _ => .after (steady_installEnumeration steady type table) ?_
  refine fun _ => .after (steady_installConstructor type) fun _ => ?_
  exact .after (steady_bindNested steady type access mode) fun _ => .after (Steady.count _) fun _ => .pure rfl

end Binders

theorem steady_bindWithin (depth : Nat) (type : TypeRef) (access : MemberAccess) (mode : BindingMode) :
    Steady host (host.bindWithin depth type access mode) := by
  induction depth generalizing type access mode with
  | zero => exact .throw _
  | succ depth ih =>
      refine .context fun context twin parallels => ?_
      have tables := parallels.tables type
      cases bound : context.binding? type with
      | none =>
          rw [bound, Option.map_none, Option.map_eq_none_iff] at tables
          rw [tables]
          exact steady_bindAnew ih type access mode
      | some binding =>
          rw [bound] at tables
          rcases Option.map_eq_some_iff.mp tables with ⟨other, found, same⟩
          rw [found]
          exact .pure same.symm

theorem steady_push (value : HostValue) : Steady host (Bridge.asScript (host.push value)) :=
  (steady_pushBy (steady_bindWithin _) value).asScript

theorem steady_toHost (value : ScriptValue) (type : TypeRef) : Steady host (host.toHost value type) := by
  refine .context fun context twin parallels => ?_
  rw [parallels.toHost_eq]
  exact Steady.ofExcept _

theorem steady_gatherArray (type element : TypeRef) (inputs : List ScriptValue) :
    Steady host (host.gatherArray type element inputs) := by
  refine .after (Steady.mapM inputs fun input => steady_toHost input element) fun elements => .store fun store => ?_
  exact .after (Steady.setStore _) fun _ => .pure rfl

theorem steady_collectVariadic (type : TypeRef) (inputs : List ScriptValue) :
    Steady host (host.collectVariadic type inputs) := by
  refine .context fun context twin parallels => ?_
  simp only [parallels.fits_eq]
  split
  · exact steady_toHost _ type
  · split
    · exact .throw _
    · exact steady_gatherArray type _ inputs

theorem steady_hostArguments (specialization : Specialization) (parameters : List Parameter)
    (inputs : List ScriptValue) : Steady host (host.hostArguments specialization parameters inputs) := by
  induction parameters generalizing inputs with
  | nil => exact .pure rfl
  | cons parameter rest ih =>
      rw [hostArguments]
      split
      · exact .throw _
      · split
        · exact (ih inputs).after fun _ => .pure rfl
        · split
          · exact (steady_collectVariadic _ inputs).after fun _ => (ih []).after fun _ => .pure rfl
          · exact (steady_toHost _ _).after fun _ => (ih _).after fun _ => .pure rfl

theorem steady_runNative (method : MethodDef) (invocation : Invocation) :
    Steady host (host.runNative method invocation) :=
  .store fun _ => .after (Steady.setStore _) fun _ => Steady.ofExcept _

end Host

end ScriptBridge
