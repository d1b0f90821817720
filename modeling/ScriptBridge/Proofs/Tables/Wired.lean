import ScriptBridge.Proofs.Steps.Members
import ScriptBridge.Proofs.Tables.Declared
import ScriptBridge.Proofs.Tables.Placement

/-!
# Wired contexts

A context is wired when nothing in its dispatch tables dangles: each slot has a
registered callable that does the work of a member of the type at the place of the
slot, or a placeholder for that place, and each bound type has its table. Every
change that operations make keeps a context wired.
-/

namespace ScriptBridge

/-- The callable does the work of a member of the type at a place; it was made when fewer types were declared. -/
def Callable.Serves (system : TypeSystem) (type : TypeRef) (place : MemberTable × String)
    (callable : Callable) : Prop :=
  ∃ earlier member, earlier.Precedes system ∧ member.DeclaredBy system type ∧ member.place = place ∧
    callable = .ofMember earlier type member

/-- The callable of a slot serves its place; as long as it is not made, a placeholder stands for the place. -/
def MemberSlot.Wired (system : TypeSystem) (callables : Array Callable) (type : TypeRef)
    (place : MemberTable × String) : MemberSlot → Prop
  | .bound handle => ∃ callable, Registered callables handle callable ∧ callable.Serves system type place
  | .unbound handle =>
      ∃ member, Registered callables handle (.placeholder member) ∧ member.type = type ∧
        (member.table, member.name) = place

/-- A callable that does some work is registered under the handle. -/
def WorksUnder (callables : Array Callable) (handle : CallableHandle) : Prop :=
  ∃ callable, Registered callables handle callable ∧ callable.isGenerated = true

/-- Calls of the callable work on no instance that a script passes: they are on a type, or make what they work on. -/
def Callable.takesNoReceiver : Callable → Bool
  | .method group | .constructor group => group.shape ≠ .onInstance
  | .delegateConstructor _ | .enumCast _ => true
  | _ => false

/-- A callable that works on no instance is registered under the handle. -/
def WorksAlone (callables : Array Callable) (handle : CallableHandle) : Prop :=
  ∃ callable, Registered callables handle callable ∧ callable.takesNoReceiver = true

structure TypeBinding.Wired (system : TypeSystem) (callables : Array Callable) (type : TypeRef)
    (binding : TypeBinding) : Prop where
  slots : ∀ entry ∈ binding.slots.entries, entry.2.Wired system callables type entry.1
  operators : ∀ entry ∈ binding.operators.entries, WorksAlone callables entry.2
  itemGetter : ∀ handle, binding.itemGetter = some handle →
    ∃ properties, Registered callables handle (.itemGetter type properties)
  itemSetter : ∀ handle, binding.itemSetter = some handle →
    ∃ properties, Registered callables handle (.itemSetter type properties)
  constructor : ∀ handle, binding.constructor = some handle → WorksAlone callables handle
  ancestors : ∀ ancestor ∈ binding.ancestors, ancestor ∈ system.ancestors type

structure Context.Wired (system : TypeSystem) (context : Context) : Prop where
  bindings : ∀ type binding, context.binding? type = some binding →
    binding.Wired system context.callables type
  placed : ∀ type binding, context.binding? type = some binding →
    context.namespaces.table? type = some binding.classTable
  stands : context.namespaces.Stands context.heap
  extensions : ∀ extensions, context.extensions = some extensions → extensions.DeclaredIn system

variable {system grown : TypeSystem} {type : TypeRef} {callables more : Array Callable}

theorem Callable.Serves.mono {place : MemberTable × String} {callable : Callable}
    (serves : callable.Serves system type place) (precedes : system.Precedes grown) :
    callable.Serves grown type place := by
  rcases serves with ⟨earlier, member, first, declared, same, made⟩
  exact ⟨earlier, member, first.trans precedes, declared.later precedes, same, made⟩

theorem Callable.Serves.isGenerated {place : MemberTable × String} {callable : Callable}
    (serves : callable.Serves system type place) : callable.isGenerated = true := by
  rcases serves with ⟨earlier, member, -, -, -, rfl⟩
  exact isGenerated_ofMember earlier type member

theorem MemberSlot.Wired.mono {place : MemberTable × String} {slot : MemberSlot}
    (wired : slot.Wired system callables type place) (precedes : system.Precedes grown)
    (kept : KeepsCallables callables more) : slot.Wired grown more type place := by
  cases slot with
  | bound handle =>
      rcases wired with ⟨callable, registered, serves⟩
      exact ⟨callable, kept _ _ registered, serves.mono precedes⟩
  | unbound handle =>
      rcases wired with ⟨member, registered, same⟩
      exact ⟨member, kept _ _ registered, same⟩

theorem WorksAlone.mono {handle : CallableHandle} (works : WorksAlone callables handle)
    (kept : KeepsCallables callables more) : WorksAlone more handle := by
  rcases works with ⟨callable, registered, alone⟩
  exact ⟨callable, kept _ _ registered, alone⟩

theorem WorksAlone.worksUnder {handle : CallableHandle} (works : WorksAlone callables handle) :
    WorksUnder callables handle := by
  rcases works with ⟨callable, registered, alone⟩
  refine ⟨callable, registered, ?_⟩
  cases callable with
  | method | constructor | delegateConstructor | enumCast => rfl
  | _ => cases alone

namespace TypeBinding.Wired

variable {binding : TypeBinding}

theorem mono (wired : binding.Wired system callables type) (precedes : system.Precedes grown)
    (kept : KeepsCallables callables more) : binding.Wired grown more type where
  slots entry present := (wired.slots entry present).mono precedes kept
  operators entry present := (wired.operators entry present).mono kept
  itemGetter handle present := (wired.itemGetter handle present).imp fun _ => kept _ _
  itemSetter handle present := (wired.itemSetter handle present).imp fun _ => kept _ _
  constructor handle present := (wired.constructor handle present).mono kept
  ancestors ancestor listed := precedes.mem_ancestors (wired.ancestors ancestor listed)

theorem bare (system : TypeSystem) (callables : Array Callable) (type : TypeRef) (mode : BindingMode)
    (table : TableId) : (TypeBinding.bare system type mode table).Wired system callables type where
  slots := fun _ present => absurd present List.not_mem_nil
  operators := fun _ present => absurd present List.not_mem_nil
  itemGetter := fun _ impossible => by cases impossible
  itemSetter := fun _ impossible => by cases impossible
  constructor := fun _ impossible => by cases impossible
  ancestors := fun _ => id

theorem insertSlot (wired : binding.Wired system callables type) {place : MemberTable × String}
    {slot : MemberSlot} (slotWired : slot.Wired system callables type place) :
    { binding with slots := binding.slots.insert place slot }.Wired system callables type where
  slots entry present := by
    rcases FinMap.mem_entries_insert present with rfl | older
    · exact slotWired
    · exact wired.slots entry older
  operators := wired.operators
  itemGetter := wired.itemGetter
  itemSetter := wired.itemSetter
  constructor := wired.constructor
  ancestors := wired.ancestors

theorem wired_of_makesSlot {host : Host} {access : MemberAccess} {mode : BindingMode}
    {member : CatalogMember} {made : (MemberTable × String) × MemberSlot}
    (declared : member.DeclaredBy host.system type)
    (makes : host.MakesSlot type access mode member made callables) :
    made.2.Wired host.system callables type made.1 := by
  rcases made with ⟨place, slot⟩
  rcases makes with ⟨rfl, isBound, registered⟩
  cases mode with
  | eager =>
      cases slot with
      | bound handle =>
          exact ⟨_, registered, host.system, member, .refl _, declared, rfl, rfl⟩
      | unbound handle => cases isBound
  | «lazy» =>
      cases slot with
      | bound handle => cases isBound
      | unbound handle => exact ⟨_, registered, rfl, rfl⟩

theorem works_of_items {items : Option (CallableHandle × CallableHandle)} {indexers : List PropertyDef}
    (makes : Host.MakesItems type indexers items callables) :
    ∀ pair, items = some pair →
      (∃ properties, Registered callables pair.1 (.itemGetter type properties)) ∧
        ∃ properties, Registered callables pair.2 (.itemSetter type properties) := by
  rintro pair rfl
  rcases makes with ⟨-, impossible⟩ | ⟨-, getter, setter, same, first, second⟩
  · cases impossible
  · rcases Option.some.inj same with rfl
    exact ⟨⟨_, first⟩, ⟨_, second⟩⟩

/-- What is made for the members of the catalog of a type may be put into its binding. -/
theorem fill {host : Host} (wired : binding.Wired host.system callables type) {access : MemberAccess}
    {mode : BindingMode} {extensions : Option ExtensionMap} {filling : Filling}
    (known : ∀ map, extensions = some map → map.DeclaredIn host.system)
    (makes : host.Makes type access mode (.ofType host.system type access extensions) filling callables) :
    (binding.fill filling).Wired host.system callables type where
  slots entry present := by
    rcases FinMap.mem_entries_insertAll present with added | older
    · rcases exists_item_of_forall₂ makes.slots added with ⟨member, listed, made⟩
      exact wired_of_makesSlot (Catalog.declaredBy_of_mem known listed) made
    · exact wired.slots entry older
  operators entry present := by
    rcases FinMap.mem_entries_insertAll present with added | older
    · rcases exists_item_of_forall₂ makes.operators added with ⟨_, -, -, registered⟩
      exact ⟨_, registered, rfl⟩
    · exact wired.operators entry older
  itemGetter handle present := by
    rcases Option.or_eq_some_iff.mp present with added | ⟨-, older⟩
    · rcases Option.map_eq_some_iff.mp added with ⟨pair, same, rfl⟩
      exact (works_of_items makes.items pair same).1
    · exact wired.itemGetter handle older
  itemSetter handle present := by
    rcases Option.or_eq_some_iff.mp present with added | ⟨-, older⟩
    · rcases Option.map_eq_some_iff.mp added with ⟨pair, same, rfl⟩
      exact (works_of_items makes.items pair same).2
    · exact wired.itemSetter handle older
  constructor := wired.constructor
  ancestors := wired.ancestors

/-- Something that does some work is registered for reading items. -/
theorem worksUnder_itemGetter (wired : binding.Wired system callables type) {handle : CallableHandle}
    (present : binding.itemGetter = some handle) : WorksUnder callables handle :=
  (wired.itemGetter handle present).elim fun _ registered => ⟨_, registered, rfl⟩

/-- Something that does some work is registered for writing items. -/
theorem worksUnder_itemSetter (wired : binding.Wired system callables type) {handle : CallableHandle}
    (present : binding.itemSetter = some handle) : WorksUnder callables handle :=
  (wired.itemSetter handle present).elim fun _ registered => ⟨_, registered, rfl⟩

end TypeBinding.Wired

namespace Context.Wired

variable {before after : Context}

/-- A change that leaves the bindings alone and takes no callable and no table away. -/
theorem change (wired : before.Wired system) (precedes : system.Precedes grown)
    (bindings : after.bindings = before.bindings) (namespaces : after.namespaces = before.namespaces)
    (callables : KeepsCallables before.callables after.callables)
    (kinds : ∀ id kind, before.heap.kind? id = some kind → after.heap.kind? id = some kind)
    (extensions : after.extensions = before.extensions) : after.Wired grown where
  bindings type binding bound := by
    rw [binding?, bindings] at bound
    exact (wired.bindings type binding bound).mono precedes callables
  placed type binding bound := by
    rw [binding?, bindings] at bound
    rw [namespaces]
    exact wired.placed type binding bound
  stands type table placed := by
    rw [namespaces] at placed
    exact kinds _ _ (wired.stands type table placed)
  extensions map known := by
    rw [extensions] at known
    exact (wired.extensions map known).later precedes

theorem modifyBinding (wired : before.Wired system) {change : TypeBinding → TypeBinding}
    (keeps : ∀ binding, binding.Wired system before.callables type →
      (change binding).Wired system before.callables type ∧ (change binding).classTable = binding.classTable) :
    (before.modifyBinding type change).Wired system := by
  rw [Context.modifyBinding]
  split
  next binding bound =>
    rcases keeps binding (wired.bindings type binding bound) with ⟨changed, sameTable⟩
    refine { wired with bindings := fun other found present => ?_, placed := fun other found present => ?_ }
    · rcases FinMap.eq_or_get?_of_insert present with ⟨rfl, rfl⟩ | earlier
      · exact changed
      · exact wired.bindings other found earlier
    · rcases FinMap.eq_or_get?_of_insert present with ⟨rfl, rfl⟩ | earlier
      · rw [sameTable]
        exact wired.placed other binding bound
      · exact wired.placed other found earlier
  next => exact wired

/-- A new table for a type and a bare binding with that table. -/
theorem openBinding (wired : before.Wired system) {mode : BindingMode} {table : TableId}
    {namespaces : NamespaceTree} {heap : TableHeap}
    (placed : before.namespaces.place system before.heap type = .ok (table, namespaces, heap)) :
    { before with
      heap := heap
      namespaces := namespaces
      bindings := before.bindings.insert type (.bare system type mode table) }.Wired system := by
  have tables := (NamespaceTree.place_spec placed).2.1
  constructor
  · intro other found present
    rcases FinMap.eq_or_get?_of_insert present with ⟨rfl, rfl⟩ | earlier
    · exact .bare system _ other mode table
    · exact wired.bindings other found earlier
  · intro other found present
    rw [tables]
    rw [binding?, FinMap.get?_insert] at present
    split at present
    next same =>
      rcases Option.some.inj present with rfl
      rw [if_pos same]
      rfl
    next different =>
      rw [if_neg different]
      exact wired.placed other found present
  · exact wired.stands.place placed
  · exact wired.extensions

theorem unbind (wired : before.Wired system) (type : TypeRef) :
    { before with
      bindings := before.bindings.erase type
      namespaces := before.namespaces.forget type }.Wired system := by
  constructor
  · intro other found present
    exact wired.bindings other found (FinMap.get?_of_erase present)
  · intro other found present
    rw [binding?, FinMap.get?_erase] at present
    rcases Option.ite_none_left_eq_some.mp present with ⟨different, present⟩
    rw [NamespaceTree.table?, NamespaceTree.forget, FinMap.get?_erase, if_neg different]
    exact wired.placed other found present
  · intro other found present
    exact wired.stands other found (FinMap.get?_of_erase present)
  · exact wired.extensions

end Context.Wired

theorem Context.wired_fresh (system : TypeSystem) (config : Config) (tag : CacheTag) :
    (Context.fresh config tag).Wired system where
  bindings := fun _ _ impossible => by cases impossible
  placed := fun _ _ impossible => by cases impossible
  stands := fun _ _ impossible => by cases impossible
  extensions := fun _ impossible => by cases impossible

end ScriptBridge
