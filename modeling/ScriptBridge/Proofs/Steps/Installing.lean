import ScriptBridge.Proofs.Steps.Binding
import ScriptBridge.Proofs.Steps.Kept
import ScriptBridge.Proofs.Steps.Registering
import ScriptBridge.Proofs.Tables.Placement

/-!
# What installing members keeps

The parts of binding a type between the moment its binding is made and the moment
the type is counted. An invariant that the smallest parts keep is kept by all of
them, if it is kept when other types are bound on the way.
-/

namespace ScriptBridge.Host

open Bridge

/-- What opening the binding of a type leads to; if it fails, nothing has changed. -/
inductive Opened (host : Host) (type : TypeRef) (mode : BindingMode) (before : World) :
    Except BindError TableId × World → Prop
  | failed {error : BindError} : Opened host type mode before (.error error, before)
  | opened {table : TableId} {namespaces : NamespaceTree} {heap : TableHeap}
      (placed : before.context.namespaces.place host.system before.context.heap type =
        .ok (table, namespaces, heap)) :
      Opened host type mode before
        (.ok table, { before with context := { before.context with
          heap := heap
          namespaces := namespaces
          bindings := before.context.bindings.insert type (.bare host.system type mode table) } })

theorem Opened.placed {host : Host} {type : TypeRef} {mode : BindingMode} {before after : World} {table : TableId}
    (opened : host.Opened type mode before (.ok table, after)) :
    after.context.namespaces.table? type = some table := by
  cases opened with
  | opened placed => rw [(NamespaceTree.place_spec placed).2.1, if_pos rfl]

theorem Opened.isBound_iff {host : Host} {type : TypeRef} {mode : BindingMode} {before after : World}
    {table : TableId} (opened : host.Opened type mode before (.ok table, after)) {other : TypeRef} :
    after.context.isBound other = true ↔ other = type ∨ before.context.isBound other = true := by
  cases opened with
  | opened =>
      refine (Eq.congr_left (Context.isBound_insert _ _)).trans ?_
      rw [Bool.or_eq_true, decide_eq_true_eq]

theorem opened_openBinding (host : Host) (type : TypeRef) (mode : BindingMode) (before : World) :
    host.Opened type mode before (exec (host.openBinding type mode) before) := by
  simp only [openBinding, exec_bind, exec_context, exec_ofExcept]
  cases placed : before.context.namespaces.place host.system before.context.heap type with
  | error error => exact .failed
  | ok result => exact .opened placed

variable {host : Host} {ε : Type} [BindingFailure ε] {invariant : Invariant} {world after : World}

theorem extensions_eq_of_bindSteps {extensions : ExtensionMap}
    (steps : Relation.ReflTransGen host.BindStep world after)
    (known : world.context.extensions = some extensions) : after.context.extensions = some extensions := by
  induction steps with
  | refl => exact known
  | @tail middle after _ step ih =>
      cases step with
      | collect absent => rw [ih] at absent; cases absent
      | rebind type change =>
          rw [Context.modifyBinding_eq]
          exact ih
      | _ => exact ih

theorem table?_of_bindSteps {type : TypeRef} {table : TableId}
    (steps : Relation.ReflTransGen host.BindStep world after)
    (placed : world.context.namespaces.table? type = some table) :
    after.context.namespaces.table? type = some table := by
  induction steps with
  | refl => exact placed
  | @tail middle after _ step ih =>
      cases step with
      | place other mode made namespaces heap opened => exact NamespaceTree.table?_place opened ih
      | rebind other change =>
          rw [Context.modifyBinding_eq]
          exact ih
      | _ => exact ih

theorem isBound_of_bindSteps {type : TypeRef} (steps : Relation.ReflTransGen host.BindStep world after)
    (bound : world.context.isBound type = true) : after.context.isBound type = true := by
  induction steps with
  | refl => exact bound
  | @tail middle after _ step ih =>
      cases step with
      | place other mode table namespaces heap placed =>
          exact Context.isBound_insert_of_isBound _ _ ih
      | rebind other change => exact (Context.isBound_modifyBinding _ _).trans ih
      | _ => exact ih

/--
A type that is bound keeps its binding. To bind another one is to bind its base, to
open its binding, to furnish it and to count it.
-/
theorem exec_bindWithin_eq_ok {depth : Nat} {type : TypeRef} {access : MemberAccess} {mode : BindingMode}
    {table : TableId} (run : exec (host.bindWithin depth type access mode) world = (.ok table, after)) :
    (∃ binding, world.context.binding? type = some binding ∧ table = binding.classTable ∧ after = world) ∨
      world.context.binding? type = none ∧ ∃ inner based opened last, depth = inner + 1 ∧
        exec (host.bindBase (host.bindWithin inner) type access mode) world = (.ok (), based) ∧
        exec (host.openBinding type mode) based = (.ok table, opened) ∧
        exec (host.furnish (host.bindWithin inner) type access mode table) opened = (.ok (), last) ∧
        after = { last with context := { last.context with
          counters := last.context.counters.countType } } := by
  cases depth with
  | zero => cases (Prod.mk.inj run).1
  | succ depth =>
      rw [bindWithin, exec_bind_of_ok (exec_context world)] at run
      cases bound : world.context.binding? type with
      | some binding =>
          rw [bound] at run
          rcases Prod.mk.inj run with ⟨same, rfl⟩
          exact .inl ⟨binding, rfl, (Except.ok.inj same).symm, rfl⟩
      | none =>
          rw [bound] at run
          dsimp only at run
          rw [bindAnew_eq] at run
          rcases exec_bind_eq_ok run with ⟨_, based, basing, run⟩
          rcases exec_bind_eq_ok run with ⟨made, opened, opening, run⟩
          rcases exec_bind_eq_ok run with ⟨_, last, furnishing, counting⟩
          rcases Prod.mk.inj counting with ⟨same, rfl⟩
          rcases Except.ok.inj same with rfl
          exact .inr ⟨rfl, depth, based, opened, last, rfl, basing, opening, furnishing, rfl⟩

theorem isBound_of_bindWithin {depth : Nat} {type : TypeRef} {access : MemberAccess} {mode : BindingMode}
    {table : TableId} (run : exec (host.bindWithin depth type access mode) world = (.ok table, after)) :
    after.context.isBound type = true := by
  rcases exec_bindWithin_eq_ok run with
    ⟨binding, bound, -, rfl⟩ | ⟨-, inner, based, opened, last, -, -, opening, furnishing, rfl⟩
  · exact Option.isSome_iff_exists.mpr ⟨binding, bound⟩
  · have openedHere := opening ▸ host.opened_openBinding type mode based
    have isBound : opened.context.isBound type = true := openedHere.isBound_iff.mpr (.inl rfl)
    have furnished := (binds_furnish (binds_bindWithin inner) type access mode table).chain furnishing
    have stillBound := isBound_of_bindSteps furnished isBound
    exact stillBound

theorem config_eq_of_bindSteps (steps : Relation.ReflTransGen host.BindStep world after) :
    after.context.config = world.context.config := by
  induction steps with
  | refl => rfl
  | @tail middle after _ step ih =>
      cases step with
      | rebind type change =>
          rw [Context.modifyBinding_eq]
          exact ih
      | _ => exact ih

/-- The extension methods that join the methods of the types of a context, if any do. -/
def extensionsIn (host : Host) (context : Context) : Option ExtensionMap :=
  if context.config.mergesExtensions then
    some (context.extensions.getD (.collect host.system host.registry))
  else none

/-- The same extension methods join while types are bound, whether they are collected before or on the way. -/
theorem extensionsIn_eq_of_bindSteps (steps : Relation.ReflTransGen host.BindStep world after) :
    host.extensionsIn after.context = host.extensionsIn world.context := by
  induction steps with
  | refl => rfl
  | @tail middle after _ step ih =>
      refine Eq.trans ?_ ih
      cases step with
      | collect absent =>
          rw [extensionsIn, extensionsIn, absent]
          rfl
      | rebind type change =>
          rw [Context.modifyBinding_eq]
          rfl
      | _ => rfl

/-- The world after the extension methods were asked for: the first time they are collected. -/
def withExtensions (host : Host) (world : World) : World :=
  if world.context.config.mergesExtensions && world.context.extensions.isNone then
    { world with context := { world.context with
        extensions := some (.collect host.system host.registry) } }
  else world

omit [BindingFailure ε] in
@[simp]
theorem exec_extensionMap (host : Host) (world : World) :
    exec (host.extensionMap : Bridge ε (Option ExtensionMap)) world =
      (.ok (host.extensionsIn world.context), host.withExtensions world) := by
  cases merges : world.context.config.mergesExtensions <;> cases known : world.context.extensions <;>
    simp [extensionMap, extensionsIn, withExtensions, exec_bind, exec_map, Except.map, merges, known]

theorem withExtensions_eq (host : Host) (world : World) :
    host.withExtensions world = world ∨
      (world.context.extensions = none ∧
        host.withExtensions world =
          { world with context := { world.context with
              extensions := some (.collect host.system host.registry) } }) := by
  rw [withExtensions]
  split
  next collects => exact .inr ⟨Option.isNone_iff_eq_none.mp (Bool.and_eq_true_iff.mp collects).2, rfl⟩
  next => exact .inl rfl

theorem bindings_withExtensions (host : Host) (world : World) :
    (host.withExtensions world).context.bindings = world.context.bindings := by
  rw [withExtensions]
  split <;> rfl

theorem store_withExtensions (host : Host) (world : World) : (host.withExtensions world).store = world.store := by
  rw [withExtensions]
  split <;> rfl

/-- What was asked for is collected, if any extension methods are merged at all. -/
theorem extensions_withExtensions (host : Host) (world : World) :
    host.extensionsIn world.context = none ∨
      (host.withExtensions world).context.extensions = host.extensionsIn world.context := by
  cases merges : world.context.config.mergesExtensions <;> cases known : world.context.extensions <;>
    simp [extensionsIn, withExtensions, merges, known]

/-- When the members of a type have been installed, its constants are handed out and its tables are filled. -/
theorem filled_of_installMembers {bind : Binder} {type : TypeRef} {access : MemberAccess} {mode : BindingMode}
    (run : exec (host.installMembers bind type access mode) world = (.ok (), after)) :
    ∃ table middle, world.context.namespaces.table? type = some table ∧
      exec (installConstants bind table
          ((Catalog.ofType host.system type access (host.extensionsIn world.context)).constants.map
            fun constant => (constant.1, constantValue world.store constant.2)))
        (host.withExtensions world) = (.ok (), middle) ∧
      host.Filled type access mode (.ofType host.system type access (host.extensionsIn world.context)) middle
        (.ok (), after) := by
  rw [installMembers_eq, exec_bind_of_ok (exec_context world)] at run
  cases placed : world.context.namespaces.table? type with
  | none => rw [placed] at run; cases run
  | some table =>
      rw [placed] at run
      dsimp only at run
      rw [exec_bind_of_ok (host.exec_extensionMap world), exec_bind_of_ok (exec_store _)] at run
      rcases exec_bind_eq_ok run with ⟨_, middle, captured, filling⟩
      rw [store_withExtensions] at captured
      exact ⟨table, middle, rfl, captured, filling ▸ host.filled_fillTables type access mode _ middle⟩

/-- What an invariant holds of, where a type has a given table. -/
def placing (invariant : Invariant) (type : TypeRef) (table : TableId) : Invariant where
  holds world := invariant.holds world ∧ world.context.namespaces.table? type = some table
  excuses := invariant.excuses

theorem keptBy_placing {α : Type} {type : TypeRef} {table : TableId} {action : Bridge ε α}
    (kept : invariant.KeptBy action) (binds : host.Binds action) : (placing invariant type table).KeptBy action := by
  rintro world ⟨holds, placed⟩
  exact (kept world holds).imp_left fun arrived => ⟨arrived, table?_of_bindSteps (binds world) placed⟩

theorem arrives_of_placing {α : Type} {type : TypeRef} {table : TableId} {run : Except ε α × World}
    (arrives : (placing invariant type table).Arrives run) : invariant.Arrives run :=
  arrives.imp_left And.left

/-- The names under which binding a type enters something into its table. -/
inductive Enters (host : Host) (type : TypeRef) : String → Prop
  | constant {access : MemberAccess} {extensions : Option ExtensionMap} {constant : String × Field}
      (listed : constant ∈ (Catalog.ofType host.system type access extensions).constants) : Enters host type constant.1
  | marker : Enters host type "UnderlyingSystemType"
  | member {member : String × Int64} (listed : member ∈ (host.definition type).enumMembers) :
      Enters host type member.1
  | cast : Enters host type "__CastFrom"

/-- The small parts of installing the members of a type keep an invariant. -/
structure Installs (host : Host) (invariant : Invariant) (type : TypeRef) : Prop where
  collect : ∀ {world : World}, world.context.extensions = none → invariant.holds world →
    invariant.holds
      { world with context := { world.context with
          extensions := some (.collect host.system host.registry) } }
  /-- A value is represented under its run-time type. -/
  represent : ∀ {world : World} {value : HostValue} {type : TypeRef}, value.toScript? = none →
    world.store.typeOf? value = some type → invariant.holds world →
    invariant.holds
      { world with context := { world.context with cache := (world.context.cache.represent value type).2 } }
  /-- Entries are written into the table of the type; no table is entered. -/
  writeEntry : ∀ {world : World} {table : TableId} {name : String} {value : ScriptValue},
    host.Enters type name → value.asTable? = none →
    world.context.namespaces.table? type = some table → invariant.holds world →
    invariant.holds
      { world with context := { world.context with
          heap := world.context.heap.set table (.string name) value } }
  register : ∀ {world : World} (callable : Callable), invariant.holds world →
    invariant.holds
      { world with context := { world.context with
          callables := world.context.callables.push callable } }
  filled : ∀ {access : MemberAccess} {mode : BindingMode} {extensions : Option ExtensionMap} {world : World}
    {run : Except BindError Unit × World},
    (extensions = none ∨ world.context.extensions = extensions) → invariant.holds world →
    host.Filled type access mode (.ofType host.system type access extensions) world run →
    invariant.holds run.2

/-- The parts of furnishing a type that is bound keep an invariant. -/
structure Furnishes (host : Host) (invariant : Invariant) (type : TypeRef) : Prop
    extends host.Installs invariant type where
  constructed : ∀ {world : World} {run : Except BindError Unit × World}, invariant.holds world →
    host.Constructed type world run → invariant.holds run.2

/-- What is done to a type itself while it is bound keeps an invariant. -/
structure BindsItself (host : Host) (invariant : Invariant) (type : TypeRef) : Prop
    extends host.Furnishes invariant type where
  opened : ∀ {mode : BindingMode} {world : World} {run : Except BindError TableId × World},
    invariant.holds world → host.Opened type mode world run → invariant.holds run.2
  counted : ∀ {world : World}, invariant.holds world →
    invariant.holds
      { world with context := { world.context with counters := world.context.counters.countType } }

theorem keptBy_register {callable : Callable}
    (allowed : ∀ {world : World}, invariant.holds world →
      invariant.holds
        { world with context := { world.context with
            callables := world.context.callables.push callable } }) :
    invariant.KeptBy (Bridge.register callable) := by
  intro world holds
  rcases Nat.lt_or_ge world.context.callables.size UInt32.size with room | full
  · rw [exec_register_of_room room]
    exact .inl (allowed holds)
  · rw [exec_register_of_full full]
    exact .inl holds

theorem Installs.registers {type : TypeRef} (installs : host.Installs invariant type) (callable : Callable) :
    invariant.KeptBy (Bridge.register callable) :=
  keptBy_register (installs.register callable)

theorem Installs.extensionMap {type : TypeRef} (installs : host.Installs invariant type) :
    invariant.KeptBy (host.extensionMap : Bridge ε (Option ExtensionMap)) := by
  refine fun world holds => .inl ?_
  rw [exec_extensionMap]
  rcases host.withExtensions_eq world with same | ⟨absent, collected⟩
  · rwa [same]
  · rw [collected]
    exact installs.collect absent holds

theorem Installs.writes {type : TypeRef} (installs : host.Installs invariant type) (table : TableId)
    {name : String} (enters : host.Enters type name) {value : ScriptValue} (noTable : value.asTable? = none) :
    (placing invariant type table).KeptBy (Bridge.writeEntry table name value : Bridge ε Unit) :=
  .modifyContext fun _ holds => ⟨installs.writeEntry enters noTable holds.2 holds.1, holds.2⟩

/-- The host values that binding a type hands out, with the constants that a store has. -/
inductive HandsOut (host : Host) (type : TypeRef) (store : HostStore) : HostValue → Prop
  | constant {access : MemberAccess} {extensions : Option ExtensionMap} {constant : String × Field}
      (listed : constant ∈ (Catalog.ofType host.system type access extensions).constants) :
      HandsOut host type store (constantValue store constant.2)
  | marker : HandsOut host type store (.type type)
  | member {member : String × Int64} (listed : member ∈ (host.definition type).enumMembers) :
      HandsOut host type store (.enumeration type member.2)

theorem keptBy_ensureBoundBy {bind : Binder} {type : TypeRef}
    (kept : ∀ access mode, invariant.KeptBy (bind type access mode)) :
    invariant.KeptBy (ensureBoundBy bind type) := by
  refine .bind .context fun context => ?_
  split
  · exact .discard (kept _ _)
  · exact .pure _

/-- Binding the run-time type of a value before representing it does not change the type. -/
theorem arrives_pushBy {bind : Binder} (binds : ∀ type access mode, host.Binds (bind type access mode))
    {value : HostValue} {world : World} (holds : invariant.holds world)
    (kept : value.toScript? = none →
      ∀ access mode, invariant.KeptBy (bind ((world.store.typeOf? value).getD .object) access mode))
    (represent : ∀ (world : World) (type : TypeRef), value.toScript? = none →
      world.store.typeOf? value = some type → invariant.holds world →
      invariant.holds
        { world with context := { world.context with
            cache := (world.context.cache.represent value type).2 } }) :
    invariant.Arrives (exec (pushBy bind value) world) := by
  rw [pushBy]
  cases simple : value.toScript? with
  | some result => exact .inl holds
  | none =>
      simp only [exec_bind_of_ok (exec_store world)]
      cases typed : world.store.typeOf? value with
      | none => exact .inl holds
      | some type =>
          have unchanged := store_eq_of_bindSteps (binds_ensureBoundBy binds type world)
          rw [typed, Option.getD_some] at kept
          refine (keptBy_ensureBoundBy (kept simple) world holds).bind fun _ after run bound => .inl ?_
          rw [exec_bind_of_ok (exec_represent value _ after)]
          rw [run] at unchanged
          exact represent after type simple (by rw [unchanged, typed]) bound

/-- What needs no proxy is neither a table nor a proxy. -/
theorem simple_of_toScript? {value : HostValue} {simple : ScriptValue} (known : value.toScript? = some simple) :
    simple.asTable? = none ∧ simple.asProxy? = none := by
  unfold HostValue.toScript? at known
  split at known
  case h_9 =>
    rcases Option.map_eq_some_iff.mp known with ⟨handle, -, rfl⟩
    exact ⟨rfl, rfl⟩
  case h_10 => cases known
  all_goals
    rcases Option.some.inj known with rfl
    exact ⟨rfl, rfl⟩

/-- What handing out a value leads to: the value needs no proxy, or it gets one once its type is bound. -/
theorem exec_pushBy_eq_ok {bind : Binder} {value : HostValue} {shown : ScriptValue}
    (run : exec (pushBy bind value) world = (.ok shown, after)) :
    value.toScript? = some shown ∧ after = world ∨
      ∃ type middle, value.toScript? = none ∧ world.store.typeOf? value = some type ∧
        exec (ensureBoundBy bind type) world = (.ok (), middle) ∧
        shown = .proxy (middle.context.cache.represent value type).1 ∧
        after = { middle with context := { middle.context with
          cache := (middle.context.cache.represent value type).2 } } := by
  rw [pushBy] at run
  cases simple : value.toScript? with
  | some result =>
      rw [simple] at run
      rcases Prod.mk.inj run with ⟨same, rfl⟩
      exact .inl ⟨congrArg some (Except.ok.inj same), rfl⟩
  | none =>
      rw [simple] at run
      dsimp only at run
      rw [exec_bind_of_ok (exec_store world)] at run
      cases typed : world.store.typeOf? value with
      | none => rw [typed] at run; cases run
      | some type =>
          rw [typed] at run
          rcases exec_bind_eq_ok run with ⟨_, middle, binding, run⟩
          rw [exec_bind_of_ok (exec_represent value type middle)] at run
          rcases Prod.mk.inj run with ⟨same, rfl⟩
          exact .inr ⟨type, middle, rfl, rfl, binding, (Except.ok.inj same).symm, rfl⟩

/-- No host value is handed out as a table. -/
theorem asTable?_of_pushBy {bind : Binder} {value : HostValue} {shown : ScriptValue}
    (run : exec (pushBy bind value) world = (.ok shown, after)) : shown.asTable? = none := by
  rcases exec_pushBy_eq_ok run with ⟨simple, -⟩ | ⟨type, middle, -, -, -, rfl, -⟩
  · exact (simple_of_toScript? simple).1
  · rfl

/-- What a binder binds while a type is bound keeps an invariant. -/
structure BindsOthers (host : Host) (invariant : Invariant) (bind : Binder) (type : TypeRef) : Prop where
  binds : ∀ type access mode, host.Binds (bind type access mode)
  base : ∀ base, host.system.base? type = some base →
    ∀ access mode, invariant.KeptBy (bind base access mode)
  nested : ∀ nested ∈ host.nestedToBind type .visible,
    ∀ access mode, invariant.KeptBy (bind nested access mode)
  /-- The run-time types of the values that are handed out. -/
  handsOut : ∀ {start world : World} {value : HostValue}, invariant.holds start →
    host.HandsOut type start.store value → value.toScript? = none → invariant.holds world →
    ∀ access mode, invariant.KeptBy (bind ((world.store.typeOf? value).getD .object) access mode)

theorem BindsOthers.of_all {bind : Binder} (binds : ∀ type access mode, host.Binds (bind type access mode))
    (kept : ∀ type access mode, invariant.KeptBy (bind type access mode)) (type : TypeRef) :
    host.BindsOthers invariant bind type where
  binds := binds
  base base _ := kept base
  nested nested _ := kept nested
  handsOut _ _ _ _ := kept _

namespace BindsOthers

variable {bind : Binder} {type : TypeRef} (others : host.BindsOthers invariant bind type)

include others

theorem bindBase (access : MemberAccess) (mode : BindingMode) :
    invariant.KeptBy (host.bindBase bind type access mode) := by
  rw [Host.bindBase]
  split
  next base known => exact .discard (others.base base known _ _)
  next => exact .pure _

theorem bindNested (access : MemberAccess) (mode : BindingMode) :
    invariant.KeptBy (host.bindNested bind type access mode) := by
  refine .bind .context fun context => ?_
  split
  · exact .forM _ fun nested listed => .discard (others.nested nested listed _ _)
  · exact .pure _

end BindsOthers

namespace Installs

variable {bind : Binder} {type : TypeRef} (installs : host.Installs invariant type)
  (others : host.BindsOthers invariant bind type)

include installs others

theorem pushBy {start : World} (began : invariant.holds start) {value : HostValue}
    (handed : host.HandsOut type start.store value) : invariant.KeptBy (Host.pushBy bind value) :=
  fun _ holds =>
    arrives_pushBy others.binds holds (fun simple => others.handsOut began handed simple holds) fun _ _ =>
      installs.represent

/-- A host value is handed out and entered into the table of the type. -/
theorem entersValue {start : World} (began : invariant.holds start) {value : HostValue}
    (handed : host.HandsOut type start.store value) (table : TableId) {name : String}
    (enters : host.Enters type name) :
    (placing invariant type table).KeptBy (do
      let shown ← Host.pushBy bind value
      Bridge.writeEntry table name shown) := by
  intro world holds
  have pushed : (placing invariant type table).KeptBy (Host.pushBy bind value) :=
    keptBy_placing (installs.pushBy others began handed) (binds_pushBy others.binds _)
  refine (pushed world holds).bind fun shown after run => ?_
  exact installs.writes table enters (asTable?_of_pushBy run) after

theorem installConstants {start : World} (began : invariant.holds start) {access : MemberAccess}
    {extensions : Option ExtensionMap} (table : TableId) :
    (placing invariant type table).KeptBy (Host.installConstants bind table
      ((Catalog.ofType host.system type access extensions).constants.map fun constant =>
        (constant.1, constantValue start.store constant.2))) := by
  refine .forM _ fun constant listed => ?_
  rcases List.mem_map.mp listed with ⟨entry, present, rfl⟩
  exact installs.entersValue others began (.constant present) table (.constant present)

theorem installMembers (access : MemberAccess) (mode : BindingMode) :
    invariant.KeptBy (host.installMembers bind type access mode) := by
  rw [installMembers_eq]
  intro world holds
  rw [exec_bind_of_ok (exec_context world)]
  cases placed : world.context.namespaces.table? type with
  | none => exact .inl holds
  | some table =>
      dsimp only
      have collected := host.exec_extensionMap (ε := BindError) world
      have reached := installs.extensionMap.holds_of_ok holds collected
      have stays := table?_of_bindSteps (binds_extensionMap.chain collected) placed
      rw [exec_bind_of_ok (host.exec_extensionMap world), exec_bind_of_ok (exec_store _)]
      refine (arrives_of_placing (installs.installConstants others reached table _ ⟨reached, stays⟩)).bind ?_
      refine fun _ last done holds => .inl ?_
      refine installs.filled ?_ holds (host.filled_fillTables type access mode _ last)
      -- Binding the types of constants does not collect the extension methods again.
      cases given : host.extensionsIn world.context with
      | none => exact .inl rfl
      | some extensions =>
          have steps := (binds_installConstants others.binds _ _).chain done
          have known := (host.extensions_withExtensions world).resolve_left (by rw [given]; exact Option.some_ne_none _)
          exact .inr (extensions_eq_of_bindSteps steps (known.trans given))

theorem installEnumeration {start : World} (began : invariant.holds start) (table : TableId) :
    (placing invariant type table).KeptBy (host.installEnumeration bind type table) := by
  rw [Host.installEnumeration]
  split
  · refine .bind (.forM _ fun member listed => ?_) fun _ => ?_
    · exact installs.entersValue others began (.member listed) table (.member listed)
    · exact .bind (keptBy_placing (installs.registers _) (@binds_register host _)) fun cast =>
        installs.writes table .cast rfl
  · exact .pure _

end Installs

theorem Furnishes.furnish {bind : Binder} {type : TypeRef} (furnishes : host.Furnishes invariant type)
    (others : host.BindsOthers invariant bind type) (access : MemberAccess) (mode : BindingMode)
    (table : TableId) :
    (placing invariant type table).KeptBy (host.furnish bind type access mode table) := by
  intro world began
  have installs := furnishes.toInstalls
  have members : (placing invariant type table).KeptBy (host.installMembers bind type access mode) :=
    keptBy_placing (installs.installMembers others access mode) (binds_installMembers others.binds _ _ _)
  have constructs : (placing invariant type table).KeptBy (host.installConstructor type) := by
    refine keptBy_placing (fun world holds => .inl ?_) (binds_installConstructor type)
    exact furnishes.constructed holds (host.constructed_installConstructor type world)
  have nests : (placing invariant type table).KeptBy (host.bindNested bind type access mode) :=
    keptBy_placing (others.bindNested access mode) (binds_bindNested others.binds _ _ _)
  have marks := installs.entersValue others began.1 .marker table .marker
  refine Invariant.KeptBy.bind members (fun _ => ?_) world began
  rw [← bind_assoc]
  refine .bind marks fun _ => ?_
  exact .bind (installs.installEnumeration others began.1 table) fun _ => .bind constructs fun _ => nests

/-- Binding a type anew keeps an invariant if what is done to it and what is bound with it do. -/
theorem keptBy_bindAnew {bind : Binder} {type : TypeRef} (itself : host.BindsItself invariant type)
    (others : host.BindsOthers invariant bind type) (access : MemberAccess) (mode : BindingMode) :
    invariant.KeptBy (host.bindAnew bind type access mode) := by
  rw [bindAnew_eq]
  refine .bind (others.bindBase access mode) fun _ world holds => ?_
  have openedHere := host.opened_openBinding type mode world
  refine Invariant.Arrives.bind (.inl (itself.opened holds openedHere)) fun table after run holds => ?_
  rw [run] at openedHere
  have furnished := itself.furnish others access mode table after ⟨holds, openedHere.placed⟩
  refine (arrives_of_placing furnished).bind fun _ last _ holds => ?_
  exact Invariant.KeptBy.bind (.modifyContext fun _ => itself.counted) (fun _ => .pure _) last holds

/--
Binding types keeps an invariant if what is done to each type does, where the
invariant holds and the type is not bound.
-/
theorem keptBy_bindWithin
    (itself : ∀ {world : World} (type : TypeRef), invariant.holds world →
      world.context.binding? type = none → host.BindsItself invariant type)
    (depth : Nat) (type : TypeRef) (access : MemberAccess) (mode : BindingMode) :
    invariant.KeptBy (host.bindWithin depth type access mode) := by
  induction depth generalizing type access mode with
  | zero => exact .throw _
  | succ depth ih =>
      intro world holds
      rw [bindWithin, exec_bind_of_ok (exec_context world)]
      cases bound : world.context.binding? type with
      | some present => exact .inl holds
      | none =>
          have others := BindsOthers.of_all (binds_bindWithin depth) ih type
          exact keptBy_bindAnew (itself type holds bound) others access mode world holds

/-- Showing hidden members keeps an invariant that binding, installing members and taking note keep. -/
theorem keptBy_showHiddenWithin
    (installs : ∀ {world : World} (type : TypeRef) (binding : TypeBinding), invariant.holds world →
      world.context.binding? type = some binding → binding.showsHidden = false →
      host.Installs invariant type)
    (kept : ∀ type access mode, invariant.KeptBy (host.bindWith type access mode))
    (shows : ∀ {world : World} (type : TypeRef), invariant.holds world →
      invariant.holds
        { world with context := world.context.modifyBinding type fun binding =>
          { binding with showsHidden := true } })
    (depth : Nat) (type : TypeRef) : invariant.KeptBy (host.showHiddenWithin depth type) := by
  induction depth generalizing type with
  | zero => exact .throw _
  | succ depth ih =>
      intro world holds
      rw [showHiddenWithin, exec_bind_of_ok (exec_context world)]
      cases bound : world.context.binding? type with
      | none => exact .inl holds
      | some binding =>
          dsimp only
          split
          · exact .inl holds
          next hides =>
            have parts := installs type binding holds bound (Bool.eq_false_iff.mpr hides)
            have others := BindsOthers.of_all binds_bindWith kept type
            refine (parts.installMembers others _ _ world holds).bind fun _ after _ filled => ?_
            refine (Invariant.KeptBy.modifyContext (fun _ => shows type) after filled).bind ?_
            intro _ last _ shown
            refine Invariant.KeptBy.forM _ (fun nested _ => ?_) last shown
            exact .bind .context fun _ => .bind (.discard (kept _ _ _)) fun _ => ih nested

end ScriptBridge.Host
