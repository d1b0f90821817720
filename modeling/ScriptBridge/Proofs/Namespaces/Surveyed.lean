import ScriptBridge.Proofs.Namespaces.Orderly
import ScriptBridge.Proofs.Steps.Changes
import ScriptBridge.Proofs.Tables.Wiring

/-!
# Surveyed contexts

A context is surveyed when its namespaces are orderly, its types are placed where
their names say, and its dispatch tables hold what their types declare. As long as
nobody writes into its namespaces and its tables of types, every change keeps a
context surveyed, and a type that has been placed stays at its table for good.
-/

namespace ScriptBridge

/-- A binding has slots for members of its type only, and the base chain of the type. -/
structure TypeBinding.Listed (system : TypeSystem) (type : TypeRef) (binding : TypeBinding) : Prop where
  slots : ∀ entry ∈ binding.slots.entries,
    ∃ member : CatalogMember, member.DeclaredBy system type ∧ member.place = entry.1
  chain : binding.ancestors = system.ancestors type

namespace TypeBinding.Listed

variable {system : TypeSystem} {type : TypeRef} {binding : TypeBinding}

theorem bare (system : TypeSystem) (type : TypeRef) (mode : BindingMode) (table : TableId) :
    (TypeBinding.bare system type mode table).Listed system type :=
  ⟨fun _ impossible => absurd impossible List.not_mem_nil, rfl⟩

theorem fill {host : Host} (listed : binding.Listed host.system type) {access : MemberAccess}
    {mode : BindingMode} {extensions : Option ExtensionMap} {filling : Filling} {callables : Array Callable}
    (known : ∀ map, extensions = some map → map.DeclaredIn host.system)
    (makes : host.Makes type access mode (.ofType host.system type access extensions) filling callables) :
    (binding.fill filling).Listed host.system type where
  slots entry present := by
    rcases FinMap.mem_entries_insertAll present with added | older
    · rcases exists_item_of_forall₂ makes.slots added with ⟨member, offered, made⟩
      exact ⟨member, Catalog.declaredBy_of_mem known offered, made.1.symm⟩
    · exact listed.slots entry older
  chain := listed.chain

theorem insertSlot (listed : binding.Listed system type) {place : MemberTable × String} {slot : MemberSlot}
    {member : CatalogMember} (declared : member.DeclaredBy system type) (same : member.place = place) :
    { binding with slots := binding.slots.insert place slot }.Listed system type where
  slots entry present := by
    rcases FinMap.mem_entries_insert present with rfl | older
    · exact ⟨member, declared, same⟩
    · exact listed.slots entry older
  chain := listed.chain

end TypeBinding.Listed

/-- The tables of a context are orderly, and the types that are known to be at tables were placed there. -/
structure Context.Surveyed (host : Host) (known : TypeRef → TableId → Prop) (context : Context) : Prop where
  wired : context.Wired host.system
  listed : ∀ type binding, context.binding? type = some binding → binding.Listed host.system type
  tables : ∃ placed : TypeRef → TableId → Prop,
    Orderly host (fun type => ∃ id, placed type id) placed context.namespaces.root context.heap ∧
      (∀ type id, known type id → placed type id) ∧
      ∀ type id, context.namespaces.table? type = some id → placed type id

namespace Context.Surveyed

open NamespaceTree

variable {host : Host} {known : TypeRef → TableId → Prop} {before after : Context} {type : TypeRef}

/-- A change that leaves all but the wiring alone. -/
theorem of_same (surveyed : before.Surveyed host known) (wired : after.Wired host.system)
    (bindings : after.bindings = before.bindings) (namespaces : after.namespaces = before.namespaces)
    (heap : after.heap = before.heap) : after.Surveyed host known where
  wired := wired
  listed type binding bound := by
    rw [binding?, bindings] at bound
    exact surveyed.listed type binding bound
  tables := by
    rw [namespaces, heap]
    exact surveyed.tables

/-- A change of the heap that keeps it orderly. -/
theorem withHeap {heap : TableHeap} (surveyed : before.Surveyed host known)
    (wired : { before with heap := heap }.Wired host.system)
    (orderly : ∀ goals placed, (∀ type id, before.namespaces.table? type = some id → placed type id) →
      Orderly host goals placed before.namespaces.root before.heap →
      Orderly host goals placed before.namespaces.root heap) :
    { before with heap := heap }.Surveyed host known where
  wired := wired
  listed := surveyed.listed
  tables := by
    rcases surveyed.tables with ⟨placed, tidy, remembers, tabled⟩
    exact ⟨placed, orderly _ placed tabled tidy, remembers, tabled⟩

theorem modifyBinding (surveyed : before.Surveyed host known) {change : TypeBinding → TypeBinding}
    (wired : (before.modifyBinding type change).Wired host.system)
    (keeps : ∀ binding, before.binding? type = some binding → binding.Listed host.system type →
      (change binding).Listed host.system type) :
    (before.modifyBinding type change).Surveyed host known where
  wired := wired
  listed other found present := by
    rw [binding?_modifyBinding] at present
    split at present
    next same =>
      subst same
      rcases Option.map_eq_some_iff.mp present with ⟨binding, bound, rfl⟩
      exact keeps binding bound (surveyed.listed other binding bound)
    next => exact surveyed.listed other found present
  tables := by
    rw [Context.modifyBinding_eq]
    exact surveyed.tables

/-- Opening a binding places its type. -/
theorem openBinding (surveyed : before.Surveyed host known) {mode : BindingMode} {table : TableId}
    {namespaces : NamespaceTree} {heap : TableHeap}
    (made : before.namespaces.place host.system before.heap type = .ok (table, namespaces, heap)) :
    { before with
      heap := heap
      namespaces := namespaces
      bindings := before.bindings.insert type (.bare host.system type mode table) }.Surveyed host known where
  wired := surveyed.wired.openBinding made
  listed other found present := by
    rcases FinMap.eq_or_get?_of_insert present with ⟨rfl, rfl⟩ | earlier
    · exact .bare host.system other mode table
    · exact surveyed.listed other found earlier
  tables := by
    rcases surveyed.tables with ⟨placed, orderly, remembers, tabled⟩
    have charted : Charted host.system placed before.namespaces before.heap := ⟨orderly.toShaped, tabled⟩
    refine ⟨_, (orderly.place tabled made).mono ?_, fun other id before => .inl (remembers other id before),
      (charted.place made).known⟩
    rintro other (⟨id, before⟩ | rfl)
    · exact ⟨id, .inl before⟩
    · exact ⟨table, .inr ⟨rfl, rfl⟩⟩

theorem unbind (surveyed : before.Surveyed host known) (type : TypeRef) :
    { before with
      bindings := before.bindings.erase type
      namespaces := before.namespaces.forget type }.Surveyed host known where
  wired := surveyed.wired.unbind type
  listed other found present := surveyed.listed other found (FinMap.get?_of_erase present)
  tables := by
    rcases surveyed.tables with ⟨placed, orderly, remembers, tabled⟩
    exact ⟨placed, orderly, remembers, fun other id present => tabled other id (FinMap.get?_of_erase present)⟩

theorem mono (surveyed : before.Surveyed host known) {fewer : TypeRef → TableId → Prop}
    (included : ∀ type id, fewer type id → known type id) : before.Surveyed host fewer where
  wired := surveyed.wired
  listed := surveyed.listed
  tables := by
    rcases surveyed.tables with ⟨placed, orderly, remembers, tabled⟩
    exact ⟨placed, orderly, fun type id before => remembers type id (included type id before), tabled⟩

/-- A type that the tree has at a table is known to be there. -/
theorem remember (surveyed : before.Surveyed host known) {table : TableId}
    (tabled : before.namespaces.table? type = some table) :
    before.Surveyed host fun other id => known other id ∨ other = type ∧ id = table where
  wired := surveyed.wired
  listed := surveyed.listed
  tables := by
    rcases surveyed.tables with ⟨placed, orderly, remembers, all⟩
    refine ⟨placed, orderly, fun other id before => ?_, all⟩
    rcases before with earlier | ⟨rfl, rfl⟩
    · exact remembers other id earlier
    · exact all other id tabled

/-- A table of a type in the tree is where the type was placed. -/
theorem recognize (surveyed : before.Surveyed host known) {path : List String} {table : TableId}
    (reached : before.heap.walk? before.namespaces.root path = some table)
    (stands : before.heap.kind? table = some (.type type)) :
    before.Surveyed host fun other id => known other id ∨ other = type ∧ id = table where
  wired := surveyed.wired
  listed := surveyed.listed
  tables := by
    rcases surveyed.tables with ⟨placed, orderly, remembers, tabled⟩
    refine ⟨placed, orderly, fun other id before => ?_, tabled⟩
    rcases before with earlier | ⟨rfl, rfl⟩
    · exact remembers other id earlier
    · exact ((orderly.types path id other).mp ⟨reached, stands⟩).1

/-- A type that is known to be at a table is reached there by its path. -/
theorem walk?_segments (surveyed : before.Surveyed host known) {table : TableId} (at_ : known type table) :
    before.heap.walk? before.namespaces.root (host.system.segments type) = some table ∧
      before.heap.kind? table = some (.type type) := by
  rcases surveyed.tables with ⟨placed, orderly, remembers, -⟩
  exact orderly.walk?_segments (remembers type table at_)

end Context.Surveyed

namespace Host

open Bridge

/-- The context is surveyed, whatever fails. -/
def surveying (host : Host) (known : TypeRef → TableId → Prop) : Invariant where
  holds world := world.context.Surveyed host known
  excuses := fun _ => False

variable {host : Host} {known : TypeRef → TableId → Prop} {type : TypeRef} {world after : World}

theorem surveyed_onlyRegistered (surveyed : world.context.Surveyed host known)
    (registered : world.OnlyRegistered after) : after.context.Surveyed host known := by
  have wired := wired_onlyRegistered surveyed.wired registered
  rw [registered.rest] at wired ⊢
  exact surveyed.of_same wired rfl rfl rfl

theorem surveyed_filled {access : MemberAccess} {mode : BindingMode} {extensions : Option ExtensionMap}
    {run : Except BindError Unit × World} (given : extensions = none ∨ world.context.extensions = extensions)
    (surveyed : world.context.Surveyed host known)
    (filled : host.Filled type access mode (.ofType host.system type access extensions) world run) :
    run.2.context.Surveyed host known := by
  have wired := (installs_wiring host type).filled given surveyed.wired filled
  cases filled with
  | failed registered => exact surveyed_onlyRegistered surveyed registered
  | filled registered bound makes =>
      refine (surveyed_onlyRegistered surveyed registered).modifyBinding wired fun binding _ listed =>
        listed.fill (fun map merged => ?_) makes
      rcases given with none | same
      · rw [none] at merged
        cases merged
      · exact surveyed.wired.extensions map (same.trans merged)

theorem surveyed_constructed {run : Except BindError Unit × World} (surveyed : world.context.Surveyed host known)
    (constructed : host.Constructed type world run) : run.2.context.Surveyed host known := by
  have wired := wired_constructed surveyed.wired constructed
  cases constructed with
  | absent => exact surveyed
  | failed registered => exact surveyed_onlyRegistered surveyed registered
  | constructed registered =>
      exact (surveyed_onlyRegistered surveyed registered).modifyBinding wired fun _ _ listed => { listed with }

theorem surveyed_withExtensions (surveyed : world.context.Surveyed host known) :
    (host.withExtensions world).context.Surveyed host known := by
  have wired := wired_withExtensions surveyed.wired
  rcases host.withExtensions_eq world with same | ⟨-, same⟩
  · rwa [same]
  · rw [same] at wired ⊢
    exact surveyed.of_same wired rfl rfl rfl

theorem surveyed_resolved {member : PendingMember} {run : Except ScriptError CallableHandle × World}
    (surveyed : world.context.Surveyed host known) (resolved : host.Resolved member world run) :
    run.2.context.Surveyed host known := by
  have wired := wired_resolved surveyed.wired resolved
  cases resolved with
  | failed same =>
      rcases same with rfl | rfl
      · exact surveyed
      · exact surveyed_withExtensions surveyed
  | present => exact surveyed
  | made bound waits found registered callable =>
      have middle := surveyed_onlyRegistered (surveyed_withExtensions surveyed) registered
      rcases declaredBy_of_pending? surveyed.wired found with ⟨declared, place⟩
      -- The change of the binding is wired since the context is that differs from it by a count.
      refine (middle.modifyBinding ?_ fun _ _ listed => listed.insertSlot declared place).of_same wired rfl rfl rfl
      exact wired.change (.refl _) rfl rfl (.refl _) (fun _ _ => id) rfl

theorem bindsItself_surveying (apart : host.NamesApart) (type : TypeRef) :
    host.BindsItself (host.surveying known) type where
  collect absent surveyed := surveyed.of_same ((installs_wiring host type).collect absent surveyed.wired) rfl rfl rfl
  represent simple typed surveyed :=
    surveyed.of_same ((installs_wiring host type).represent simple typed surveyed.wired) rfl rfl rfl
  writeEntry enters noTable at_ surveyed := by
    refine surveyed.withHeap ((installs_wiring host type).writeEntry enters noTable at_ surveyed.wired) ?_
    exact fun _ placed tabled orderly => orderly.enterData apart (tabled type _ at_) enters noTable
  register callable surveyed :=
    surveyed.of_same ((installs_wiring host type).register callable surveyed.wired) rfl rfl rfl
  filled := surveyed_filled
  constructed := surveyed_constructed
  opened surveyed opened := by
    cases opened with
    | failed => exact surveyed
    | opened made => exact surveyed.openBinding made
  counted surveyed := surveyed.of_same ((bindsItself_wiring host type).counted surveyed.wired) rfl rfl rfl

theorem keptBy_bindWithin_surveying (apart : host.NamesApart) (depth : Nat) (type : TypeRef)
    (access : MemberAccess) (mode : BindingMode) :
    (host.surveying known).KeptBy (host.bindWithin depth type access mode) :=
  keptBy_bindWithin (fun type _ _ => bindsItself_surveying apart type) depth type access mode

theorem keptBy_showHidden_surveying (apart : host.NamesApart) (type : TypeRef) :
    (host.surveying known).KeptBy (host.showHidden type) := by
  refine keptBy_showHiddenWithin (fun type _ _ _ _ => (bindsItself_surveying apart type).toInstalls)
    (keptBy_bindWithin_surveying apart _) ?_ _ type
  intro world type surveyed
  refine surveyed.modifyBinding ?_ fun _ _ listed => { listed with }
  exact surveyed.wired.modifyBinding fun binding bindingWired => ⟨{ bindingWired with }, rfl⟩

/-- A type that was bound has the table that was given for it. -/
theorem table?_of_bindWithin {depth : Nat} {access : MemberAccess} {mode : BindingMode} {table : TableId}
    (wired : world.context.Wired host.system)
    (run : exec (host.bindWithin depth type access mode) world = (.ok table, after)) :
    after.context.namespaces.table? type = some table := by
  rcases exec_bindWithin_eq_ok run with
    ⟨binding, bound, rfl, rfl⟩ | ⟨-, inner, based, opened, last, -, -, opening, furnishing, rfl⟩
  · exact wired.placed type binding bound
  · have placed := (opening ▸ host.opened_openBinding type mode based).placed
    have steps := (binds_furnish (binds_bindWithin inner) type access mode table).chain furnishing
    have stays := table?_of_bindSteps steps placed
    exact stays

/-- A change keeps a context surveyed, unless an entry is written into a table of the tree. -/
theorem surveyed_change (apart : host.NamesApart) (surveyed : world.context.Surveyed host known)
    (change : host.Change PlainTable world after) : after.context.Surveyed host known := by
  have wires := respects_wiring host
  cases change with
  | bindWith type access mode =>
      exact ((keptBy_bindWithin_surveying apart _ type access mode) world surveyed).resolve_right nofun
  | showHidden type => exact ((keptBy_showHidden_surveying apart type) world surveyed).resolve_right nofun
  | resolveMember member => exact surveyed_resolved surveyed (host.resolved_resolveMember member world)
  | register callable =>
      exact (((bindsItself_surveying apart .object).registers callable) world surveyed).resolve_right nofun
  | represent value type simple typed =>
      exact surveyed.of_same (wires.represent simple typed surveyed.wired) rfl rfl rfl
  | countResolution matched => exact surveyed.of_same (wires.countResolution matched surveyed.wired) rfl rfl rfl
  | outside step same =>
      exact surveyed.of_same (wires.outside step same surveyed.wired) step.bindings_eq step.namespaces_eq same
  | createTable =>
      exact surveyed.withHeap (wires.createTable surveyed.wired) fun _ _ _ orderly => orderly.create .plain
  | enterSpace table path name space vacant known =>
      exact surveyed.withHeap (wires.enterSpace space vacant known surveyed.wired) fun _ _ _ orderly =>
        orderly.importSpace space vacant known
  | writeKey id key value plain =>
      exact surveyed.withHeap (wires.writeKey id key value surveyed.wired) fun _ _ _ orderly =>
        orderly.writeElsewhere (orderly.outside_of_plain plain) key value
  | unbind type => exact surveyed.unbind type
  | elsewhere => exact surveyed

theorem surveyed_changes (apart : host.NamesApart) (surveyed : world.context.Surveyed host known)
    (changes : host.Unwritten world after) : after.context.Surveyed host known := by
  induction changes with
  | refl => exact surveyed
  | tail _ change ih => exact surveyed_change apart ih change

/-- A type that was bound is at the table that was given for it. -/
theorem surveyed_of_bindWith (apart : host.NamesApart) (surveyed : world.context.Surveyed host known)
    {access : MemberAccess} {mode : BindingMode} {table : TableId}
    (run : exec (host.bindWith type access mode) world = (.ok table, after)) :
    after.context.Surveyed host fun other id => known other id ∨ other = type ∧ id = table :=
  ((keptBy_bindWithin_surveying apart _ type access mode).holds_of_ok surveyed run).remember
    (table?_of_bindWithin surveyed.wired run)

end Host

theorem Context.surveyed_fresh (host : Host) (config : Config) (tag : CacheTag) :
    (Context.fresh config tag).Surveyed host fun _ _ => False where
  wired := Context.wired_fresh host.system config tag
  listed _ _ impossible := by cases impossible
  tables := ⟨_, (Orderly.created host).mono fun _ => False.elim, fun _ _ => id,
    fun _ _ impossible => by cases impossible⟩

end ScriptBridge
