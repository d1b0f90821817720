import ScriptBridge.Context.Calls
import ScriptBridge.Proofs.Host.Plain
import ScriptBridge.Proofs.Identity.Consistency
import ScriptBridge.Proofs.Modes.Tables
import ScriptBridge.Proofs.Steps.Registering

/-!
# Worlds that agree

Two worlds on one host, one with a context that makes every member with its type
and one with a context that makes members at their first use. They agree when
they differ in nothing but the callables: where the first one has the callable
of a member, the second one has it too or has a placeholder that promises it.
-/

namespace ScriptBridge

namespace Catalog

/-- No two members of the catalog have the same kind, name and staticness. -/
def Unambiguous (catalog : Catalog) : Prop :=
  (catalog.members.map fun member => (member.kind, member.name, member.isStatic)).Nodup

instance (catalog : Catalog) : Decidable catalog.Unambiguous :=
  inferInstanceAs (Decidable (List.Nodup _))

/-- A member of an unambiguous catalog is the one that is found for its kind, name and staticness. -/
theorem Unambiguous.find?_eq {catalog : Catalog} (unambiguous : catalog.Unambiguous) {member : CatalogMember}
    (present : member ∈ catalog.members) :
    catalog.find? member.kind member.name member.isStatic = some member := by
  rw [find?, List.find?_eq_some_iff_append]
  rcases List.append_of_mem present with ⟨before, after, split⟩
  refine ⟨by simp, before, after, split, fun other earlier => ?_⟩
  rw [Unambiguous, split, List.map_append, List.map_cons] at unambiguous
  have distinct := (List.nodup_append.mp unambiguous).2.2 _ (List.mem_map_of_mem earlier) _ List.mem_cons_self
  simp only [ne_eq, Prod.mk.injEq] at distinct
  grind

/-- Without declared members there is nothing to confuse. -/
theorem unambiguous_of_bare {system : TypeSystem} {type : TypeRef} (access : MemberAccess)
    (fields : (system.definition type).fields = []) (events : (system.definition type).events = [])
    (methods : (system.definition type).methods = []) : (ofType system type access none).Unambiguous := by
  have noMethods : system.methods type = [] := by rw [TypeSystem.methods, methods, List.mapIdx_nil]
  have noFields : system.fields type = [] := by rw [TypeSystem.fields, fields, List.map_nil]
  have walked : walkMethods system type access = ⟨[], .empty⟩ := by
    simp [walkMethods, walkedMethods, noMethods]
  simp [Unambiguous, ofType, scriptFields, eventMembers, methodGroups, groupMembers, noFields, events, walked,
    FinMap.empty]

end Catalog

/-- The extension methods that a context of the given configuration merges. -/
def Host.mergedExtensions (host : Host) (config : Config) : Option ExtensionMap :=
  if config.mergesExtensions then some (.collect host.system host.registry) else none

/-- The catalog of a type as a context of the given configuration binds it. -/
def Host.catalog (host : Host) (config : Config) (type : TypeRef) : Catalog :=
  .ofType host.system type config.access (host.mergedExtensions config)

/--
A host on which two contexts are compared: one of the given configuration, which makes members with
their types, and one that is like it but makes members at their first use. Members can be told apart
by kind, name and staticness, and no field starts with a delegate. The bodies leave no delegates; they
stand in for the native bodies of the host, and compared is what both do alike. The renaming takes the
mark of the first cache to that of the second.
-/
structure Comparison where
  given : Host
  bodies : List NativeBody
  config : Config
  rename : Equiv.Perm CacheTag
  isEager : config.mode = .eager
  unambiguous : ∀ type, (given.catalog config type).Unambiguous
  plainTypes : given.system.Plain
  plainBodies : ∀ code ∈ bodies, code.KeepsPlain given.system

/-- The host of the comparison with the bodies that leave no delegates. -/
def Comparison.host (c : Comparison) : Host := { c.given with natives := c.bodies }

theorem Comparison.unambiguous_catalog (c : Comparison) (type : TypeRef) :
    (c.host.catalog c.config type).Unambiguous :=
  c.unambiguous type

theorem Comparison.plainNatives (c : Comparison) : ∀ code ∈ c.host.natives, code.KeepsPlain c.host.system :=
  c.plainBodies

/-- On every host, the native bodies that fail instead of leaving a delegate can stand in for those of the host. -/
noncomputable def Comparison.ofHost (given : Host) (config : Config) (rename : Equiv.Perm CacheTag)
    (isEager : config.mode = .eager) (unambiguous : ∀ type, (given.catalog config type).Unambiguous)
    (plainTypes : given.system.Plain) : Comparison where
  given := given
  bodies := given.natives.map NativeBody.withoutDelegates
  config := config
  rename := rename
  isEager := isEager
  unambiguous := unambiguous
  plainTypes := plainTypes
  plainBodies := by
    intro code present
    rcases List.mem_map.mp present with ⟨original, -, rfl⟩
    exact original.keepsPlain_withoutDelegates given.system

/-- The same generated callable is registered on both sides, each time under its own handle. -/
def SameCallable (left right : Array Callable) (handle other : CallableHandle) : Prop :=
  ∃ callable, callable.isGenerated = true ∧ Registered left handle callable ∧ Registered right other callable

variable {left right laterLeft laterRight : Array Callable}

theorem SameCallable.keep {handle other : CallableHandle} (same : SameCallable left right handle other)
    (keptLeft : KeepsCallables left laterLeft) (keptRight : KeepsCallables right laterRight) :
    SameCallable laterLeft laterRight handle other := by
  rcases same with ⟨callable, generated, found, otherFound⟩
  exact ⟨callable, generated, keptLeft _ _ found, keptRight _ _ otherFound⟩

namespace Comparison

variable (c : Comparison)

/-- The callable that the placeholder of a member makes at its first use. -/
def callableOf? (member : PendingMember) : Option Callable :=
  ((Catalog.ofType c.host.system member.type member.access (c.host.mergedExtensions c.config)).find?
    member.kind member.name member.isStatic).map (.ofMember c.host.system member.type)

/--
The slot of a member on both sides: the same callable, or the callable and the placeholder that
promises it and lives in this very slot.
-/
inductive SlotsAgree (left right : Array Callable) (type : TypeRef) (place : MemberTable × String) :
    MemberSlot → MemberSlot → Prop
  | made {handle other : CallableHandle} (same : SameCallable left right handle other) :
      SlotsAgree left right type place (.bound handle) (.bound other)
  | pending {handle other : CallableHandle} {member : PendingMember} {callable : Callable}
      (found : Registered left handle callable) (otherFound : Registered right other (.placeholder member))
      (ofType : member.type = type) (inPlace : (member.table, member.name) = place)
      (promise : c.callableOf? member = some callable) :
      SlotsAgree left right type place (.bound handle) (.unbound other)

/-- The bindings of a type on both sides have agreeing slots and the same other callables. -/
structure BindingsAgree (left right : Array Callable) (type : TypeRef) (binding other : TypeBinding) :
    Prop where
  slots : FinMap.Related (c.SlotsAgree left right type) binding.slots other.slots
  operators : FinMap.Related (fun _ => SameCallable left right) binding.operators other.operators
  itemGetter : Option.Rel (SameCallable left right) binding.itemGetter other.itemGetter
  itemSetter : Option.Rel (SameCallable left right) binding.itemSetter other.itemSetter
  constructor : Option.Rel (SameCallable left right) binding.constructor other.constructor
  classTable : other.classTable = binding.classTable
  ancestors : other.ancestors = binding.ancestors

/-- The worlds differ in nothing but the mark of the cache and the callables, and no delegate came up. -/
structure Agree (left right : World) : Prop where
  store : right.store = left.store
  plainStore : left.store.Plain
  cache : right.context.cache = left.context.cache.retag c.rename
  consistent : left.context.cache.Consistent
  plainCache : left.context.cache.AllLive fun entry => entry.value.Plain
  config : left.context.config = c.config
  otherConfig : right.context.config = c.config.onDemand
  namespaces : right.context.namespaces = left.context.namespaces
  heap : TableHeap.Related c.rename (SameCallable left.context.callables right.context.callables)
    left.context.heap right.context.heap
  bindings : FinMap.Related (c.BindingsAgree left.context.callables right.context.callables)
    left.context.bindings right.context.bindings
  extensions : ∀ extensions, left.context.extensions = some extensions →
    extensions = .collect c.host.system c.host.registry
  otherExtensions : ∀ extensions, right.context.extensions = some extensions →
    extensions = .collect c.host.system c.host.registry
  fewer : left.context.callables.size ≤ right.context.callables.size

/--
A handle of the context that makes members with their types, and a handle of the other one that
stands for the same member: it has the same callable, or it is a placeholder that promises it and
waits in its slot or has been replaced there by the callable.
-/
inductive StandsFor (left right : Context) : CallableHandle → CallableHandle → Prop
  | made {handle other : CallableHandle} (same : SameCallable left.callables right.callables handle other) :
      StandsFor left right handle other
  | placeholder {handle other : CallableHandle} {member : PendingMember} {callable : Callable}
      {binding : TypeBinding} {slot : MemberSlot} (found : Registered left.callables handle callable)
      (otherFound : Registered right.callables other (.placeholder member))
      (promise : c.callableOf? member = some callable) (bound : right.binding? member.type = some binding)
      (present : binding.slot? member.table member.name = some slot)
      (state : slot = .unbound other ∨
        ∃ final, slot = .bound final ∧ Registered right.callables final callable) :
      StandsFor left right handle other

variable {c}

theorem isGenerated_of_callableOf? {member : PendingMember} {callable : Callable}
    (promise : c.callableOf? member = some callable) : callable.isGenerated = true := by
  rcases Option.map_eq_some_iff.mp promise with ⟨found, -, rfl⟩
  exact Callable.isGenerated_ofMember _ _ _

theorem SlotsAgree.keep {type : TypeRef} {place : MemberTable × String} {slot other : MemberSlot}
    (agree : c.SlotsAgree left right type place slot other) (keptLeft : KeepsCallables left laterLeft)
    (keptRight : KeepsCallables right laterRight) : c.SlotsAgree laterLeft laterRight type place slot other := by
  cases agree with
  | made same => exact .made (same.keep keptLeft keptRight)
  | pending found otherFound ofType inPlace promise =>
      exact .pending (keptLeft _ _ found) (keptRight _ _ otherFound) ofType inPlace promise

theorem rel_sameCallable_keep {handle other : Option CallableHandle}
    (same : Option.Rel (SameCallable left right) handle other) (keptLeft : KeepsCallables left laterLeft)
    (keptRight : KeepsCallables right laterRight) :
    Option.Rel (SameCallable laterLeft laterRight) handle other := by
  cases same with
  | none => exact .none
  | some same => exact .some (same.keep keptLeft keptRight)

theorem BindingsAgree.keep {type : TypeRef} {binding other : TypeBinding}
    (agree : c.BindingsAgree left right type binding other) (keptLeft : KeepsCallables left laterLeft)
    (keptRight : KeepsCallables right laterRight) : c.BindingsAgree laterLeft laterRight type binding other where
  slots := agree.slots.mono fun _ _ _ slots => slots.keep keptLeft keptRight
  operators := agree.operators.mono fun _ _ _ same => same.keep keptLeft keptRight
  itemGetter := rel_sameCallable_keep agree.itemGetter keptLeft keptRight
  itemSetter := rel_sameCallable_keep agree.itemSetter keptLeft keptRight
  constructor := rel_sameCallable_keep agree.constructor keptLeft keptRight
  classTable := agree.classTable
  ancestors := agree.ancestors

/-- A slot of the second context is as it was, or what its placeholder promised has taken its place. -/
def SlotKept (c : Comparison) (before after : Array Callable) (slot newer : MemberSlot) : Prop :=
  newer = slot ∨
    ∃ pending final, slot = .unbound pending ∧ newer = .bound final ∧
      ∀ member, Registered before pending (.placeholder member) →
        ∃ callable, c.callableOf? member = some callable ∧ Registered after final callable

/--
What operations change in the pair of worlds: no callable is lost, and no slot of a bound type, but
for the type that is being bound.
-/
structure Advances (c : Comparison) (inProgress : Option TypeRef) (before after : World × World) : Prop where
  left : KeepsCallables before.1.context.callables after.1.context.callables
  right : KeepsCallables before.2.context.callables after.2.context.callables
  bindings : ∀ type binding, some type ≠ inProgress → before.2.context.binding? type = some binding →
    ∃ newer, after.2.context.binding? type = some newer ∧
      ∀ table name slot, binding.slot? table name = some slot →
        ∃ newerSlot, newer.slot? table name = some newerSlot ∧
          c.SlotKept before.2.context.callables after.2.context.callables slot newerSlot

namespace Advances

variable {inProgress : Option TypeRef} {before middle after : World × World}

theorem refl (inProgress : Option TypeRef) (worlds : World × World) : c.Advances inProgress worlds worlds :=
  ⟨fun _ _ => id, fun _ _ => id, fun _ binding _ bound => ⟨binding, bound, fun _ _ slot present =>
    ⟨slot, present, Or.inl rfl⟩⟩⟩

theorem trans (first : c.Advances inProgress before middle) (second : c.Advances inProgress middle after) :
    c.Advances inProgress before after := by
  refine ⟨fun _ _ => second.left _ _ ∘ first.left _ _, fun _ _ => second.right _ _ ∘ first.right _ _, ?_⟩
  intro type binding other bound
  rcases first.bindings type binding other bound with ⟨binding', bound', slots⟩
  rcases second.bindings type binding' other bound' with ⟨newer, newerBound, newerSlots⟩
  refine ⟨newer, newerBound, fun table name slot present => ?_⟩
  rcases slots table name slot present with ⟨slot', present', kept⟩
  rcases newerSlots table name slot' present' with ⟨newerSlot, newerPresent, keptAgain⟩
  refine ⟨newerSlot, newerPresent, ?_⟩
  rcases kept with rfl | ⟨pending, final, rfl, rfl, settled⟩
  · rcases keptAgain with rfl | ⟨pending, final, rfl, rfl, settled⟩
    · exact Or.inl rfl
    · exact Or.inr ⟨pending, final, rfl, rfl, fun member found => settled member (first.right _ _ found)⟩
  · rcases keptAgain with rfl | ⟨_, _, impossible, _⟩
    · refine Or.inr ⟨pending, final, rfl, rfl, fun member found => ?_⟩
      rcases settled member found with ⟨callable, promise, made⟩
      exact ⟨callable, promise, second.right _ _ made⟩
    · cases impossible

theorem weaken (advances : c.Advances none before after) (inProgress : Option TypeRef) :
    c.Advances inProgress before after :=
  ⟨advances.left, advances.right, fun type binding _ => advances.bindings type binding nofun⟩

/-- Where the type in progress was not bound, nothing was lost at all. -/
theorem of_unbound {type : TypeRef} (advances : c.Advances (some type) before after)
    (unbound : before.2.context.binding? type = none) : c.Advances none before after := by
  refine ⟨advances.left, advances.right, fun other binding _ bound => ?_⟩
  refine advances.bindings other binding (fun same => ?_) bound
  rw [Option.some.inj same, unbound] at bound
  cases bound

/-- Handles that stand for the same member go on doing so. -/
theorem standsFor (advances : c.Advances none before after) {handle other : CallableHandle}
    (stands : c.StandsFor before.1.context before.2.context handle other) :
    c.StandsFor after.1.context after.2.context handle other := by
  cases stands with
  | made same => exact .made (same.keep advances.left advances.right)
  | @placeholder member callable binding slot found otherFound promise bound present state =>
      rcases advances.bindings member.type binding nofun bound with ⟨newer, newerBound, slots⟩
      rcases slots member.table member.name slot present with ⟨newerSlot, newerPresent, kept⟩
      refine .placeholder (advances.left _ _ found) (advances.right _ _ otherFound) promise newerBound
        newerPresent ?_
      rcases kept with rfl | ⟨pending, final, rfl, rfl, settled⟩
      · rcases state with waiting | ⟨final, rfl, made⟩
        · exact Or.inl waiting
        · exact Or.inr ⟨final, rfl, advances.right _ _ made⟩
      · rcases state with waiting | ⟨final, impossible, _⟩
        · rcases MemberSlot.unbound.inj waiting with rfl
          rcases settled member otherFound with ⟨settledCallable, settledPromise, made⟩
          rcases Option.some.inj (promise.symm.trans settledPromise) with rfl
          exact Or.inr ⟨final, rfl, made⟩
        · cases impossible

end Advances

end Comparison

end ScriptBridge
