import Mathlib.Data.List.Forall2
import ScriptBridge.Proofs.Steps.Step

/-!
# Registering callables

The callables that filling the tables of a type registers. Until the tables are
written, nothing but the callables and their count changes, and each registered
callable is the one that its member, operator or indexer is to have.
-/

namespace ScriptBridge

/-- Whether the callable does the work of a member, a constructor or a cast. -/
def Callable.isGenerated : Callable → Bool
  | .placeholder _ | .embedder _ _ => false
  | _ => true

theorem Callable.isGenerated_ofMember (system : TypeSystem) (type : TypeRef) (member : CatalogMember) :
    (ofMember system type member).isGenerated = true := by
  simp only [ofMember]
  split
  · split <;> rfl
  all_goals rfl

/-- A callable is found again by the number that delegates have for it. -/
@[simp]
theorem CallableHandle.ofTarget?_target (handle : CallableHandle) : ofTarget? handle.target = some handle := by
  have small : handle.target.toNat < UInt32.size := by
    rw [target, UInt32.toNat_toUInt64]
    exact handle.index.toNat_lt
  rw [ofTarget?, if_pos small, target, UInt32.toUInt32_toUInt64]

def Registered (callables : Array Callable) (handle : CallableHandle) (callable : Callable) : Prop :=
  callables[handle.index.toNat]? = some callable

def KeepsCallables (before after : Array Callable) : Prop :=
  ∀ handle callable, Registered before handle callable → Registered after handle callable

theorem Registered.lt {callables : Array Callable} {handle : CallableHandle} {callable : Callable}
    (registered : Registered callables handle callable) : handle.index.toNat < callables.size :=
  (Array.getElem?_eq_some_iff.mp registered).1

theorem registered_push {callables : Array Callable} (room : callables.size < UInt32.size)
    (callable : Callable) :
    Registered (callables.push callable) ⟨callables.size.toUInt32⟩ callable := by
  rw [Registered, Nat.toUInt32, UInt32.toNat_ofNat_of_lt' room, Array.getElem?_push_size]

namespace KeepsCallables

variable {before middle after : Array Callable}

theorem refl (callables : Array Callable) : KeepsCallables callables callables := fun _ _ present => present

theorem trans (first : KeepsCallables before middle) (second : KeepsCallables middle after) :
    KeepsCallables before after :=
  fun handle callable present => second handle callable (first handle callable present)

theorem push (callables : Array Callable) (callable : Callable) :
    KeepsCallables callables (callables.push callable) := by
  intro handle found present
  rw [Registered, Array.getElem?_push_lt present.lt]
  exact (Array.getElem?_eq_getElem present.lt).symm.trans present

end KeepsCallables

namespace Context

variable (context : Context)

theorem callables_modifyBinding (type : TypeRef) (change : TypeBinding → TypeBinding) :
    (context.modifyBinding type change).callables = context.callables := by
  rw [modifyBinding_eq]

variable {type other : TypeRef} (change : TypeBinding → TypeBinding)

theorem binding?_modifyBinding :
    (context.modifyBinding type change).binding? other =
      if other = type then (context.binding? type).map change else context.binding? other := by
  rw [modifyBinding]
  cases bound : context.binding? type with
  | none =>
      dsimp only
      split
      next same => rw [same, bound, Option.map_none]
      next => rfl
  | some binding => exact FinMap.get?_insert _ _ _ _

theorem isBound_modifyBinding : (context.modifyBinding type change).isBound other = context.isBound other := by
  rw [isBound, binding?_modifyBinding]
  split
  next same => rw [same, Option.isSome_map]; rfl
  next => rfl

theorem isBound_insert (binding : TypeBinding) :
    ({ context with bindings := context.bindings.insert type binding } : Context).isBound other =
      (decide (other = type) || context.isBound other) := by
  rw [isBound, binding?, FinMap.get?_insert]
  by_cases same : other = type
  · rw [if_pos same, decide_eq_true same]
    rfl
  · rw [if_neg same, decide_eq_false same]
    rfl

theorem isBound_insert_of_isBound (binding : TypeBinding) (bound : context.isBound other = true) :
    ({ context with bindings := context.bindings.insert type binding } : Context).isBound other = true := by
  rw [isBound_insert, bound, Bool.or_true]

theorem binding?_modifyBinding_of_ne (different : other ≠ type) :
    (context.modifyBinding type change).binding? other = context.binding? other := by
  rw [binding?_modifyBinding, if_neg different]

end Context

theorem Host.Step.keepsCallables {host : Host} {world after : World} (step : host.Step world after) :
    KeepsCallables world.context.callables after.context.callables := by
  cases step with
  | bind step =>
      cases step with
      | rebind type change =>
          rw [Context.callables_modifyBinding]
          exact .refl _
      | register callable => exact .push _ callable
      | _ => exact .refl _
  | outside step => cases step <;> exact .refl _
  | unbind type => exact .refl _

theorem Host.keepsCallables_of_steps {host : Host} {world after : World}
    (steps : Relation.ReflTransGen host.Step world after) :
    KeepsCallables world.context.callables after.context.callables := by
  induction steps with
  | refl => exact .refl _
  | tail _ step ih => exact ih.trans step.keepsCallables

theorem Host.keepsCallables_of_bindSteps {host : Host} {world after : World}
    (steps : Relation.ReflTransGen host.BindStep world after) :
    KeepsCallables world.context.callables after.context.callables :=
  keepsCallables_of_steps (Relation.ReflTransGen.mono (fun _ _ => .bind) _ _ steps)

/-- The world has more callables, some of them counted; all else is as it was. -/
structure World.OnlyRegistered (before after : World) : Prop where
  keeps : KeepsCallables before.context.callables after.context.callables
  typesBound_eq : after.context.counters.typesBound = before.context.counters.typesBound
  rest : after =
    { before with context := { before.context with
        callables := after.context.callables
        counters := after.context.counters } }

namespace World.OnlyRegistered

variable {before middle after : World}

theorem refl (world : World) : world.OnlyRegistered world := ⟨.refl _, rfl, rfl⟩

theorem trans (first : before.OnlyRegistered middle) (second : middle.OnlyRegistered after) :
    before.OnlyRegistered after where
  keeps := first.keeps.trans second.keeps
  typesBound_eq := second.typesBound_eq.trans first.typesBound_eq
  rest := by
    have rest := second.rest
    rw [first.rest] at rest
    exact rest

theorem bindings_eq (registered : before.OnlyRegistered after) :
    after.context.bindings = before.context.bindings := by
  rw [registered.rest]

theorem isBound_eq (registered : before.OnlyRegistered after) (type : TypeRef) :
    after.context.isBound type = before.context.isBound type := by
  rw [Context.isBound, Context.binding?, registered.bindings_eq]
  rfl

end World.OnlyRegistered

section Pointwise

variable {ι α : Type} {related : ι → α → Prop} {items : List ι} {values : List α}

theorem exists_item_of_forall₂ (all : List.Forall₂ related items values) {value : α} (present : value ∈ values) :
    ∃ item ∈ items, related item value := by
  induction all with
  | nil => cases present
  | @cons item other items others first _ ih =>
      rcases List.mem_cons.mp present with rfl | rest
      · exact ⟨item, List.mem_cons_self, first⟩
      · rcases ih rest with ⟨found, listed, holds⟩
        exact ⟨found, List.mem_cons_of_mem _ listed, holds⟩

/-- What goes along with the same items goes along with each other. -/
theorem forall₂_of_items {β : Type} {other : ι → β → Prop} {joined : α → β → Prop} {others : List β}
    (first : List.Forall₂ related items values) (second : List.Forall₂ other items others)
    (join : ∀ item value otherValue, related item value → other item otherValue → joined value otherValue) :
    List.Forall₂ joined values others := by
  induction first generalizing others with
  | nil =>
      cases second
      exact .nil
  | cons holds _ ih =>
      cases second with
      | cons otherHolds rest => exact .cons (join _ _ _ holds otherHolds) (ih rest)

theorem exists_value_of_forall₂ (all : List.Forall₂ related items values) {item : ι} (present : item ∈ items) :
    ∃ value ∈ values, related item value := by
  rcases exists_item_of_forall₂ all.flip present with ⟨value, listed, holds⟩
  exact ⟨value, listed, holds⟩

end Pointwise

namespace Bridge

variable {α β : Type}

/-- The operation registers callables and does nothing else; what it gives holds of the callables. -/
def Registers (given : α → Array Callable → Prop) (action : Bridge BindError α) : Prop :=
  ∀ world, world.OnlyRegistered (exec action world).2 ∧
    ∀ value, (exec action world).1 = .ok value → given value (exec action world).2.context.callables

/-- What holds of a result and the callables still holds when there are more callables. -/
def Lasts (given : α → Array Callable → Prop) : Prop :=
  ∀ value before after, KeepsCallables before after → given value before → given value after

theorem Lasts.forall₂ {ι : Type} {each : ι → α → Array Callable → Prop} (lasts : ∀ item, Lasts (each item))
    (items : List ι) :
    Lasts fun values callables => List.Forall₂ (fun item value => each item value callables) items values :=
  fun _ _ _ kept all => all.imp fun _ _ => lasts _ _ _ _ kept

namespace Registers

variable {given : α → Array Callable → Prop}

theorem mono {weaker : α → Array Callable → Prop} {action : Bridge BindError α}
    (registers : Registers given action)
    (implied : ∀ value callables, given value callables → weaker value callables) :
    Registers weaker action :=
  fun world => ⟨(registers world).1, fun value run => implied _ _ ((registers world).2 value run)⟩

theorem pure (value : α) : Registers (fun result _ => result = value) (Pure.pure value) :=
  fun world => ⟨.refl world, fun _ run => (Except.ok.inj run).symm⟩

theorem bind {followed : α → β → Array Callable → Prop} {action : Bridge BindError α}
    {next : α → Bridge BindError β} (first : Registers given action) (lasts : Lasts given)
    (second : ∀ value, Registers (followed value) (next value)) :
    Registers (fun result callables => ∃ value, given value callables ∧ followed value result callables)
      (action >>= next) := by
  intro world
  rw [exec_bind]
  rcases first world with ⟨registered, gave⟩
  cases run : exec action world with
  | mk result middle =>
      rw [run] at registered gave
      cases result with
      | error error => exact ⟨registered, fun _ impossible => by cases impossible⟩
      | ok value =>
          rcases second value middle with ⟨more, gaveAfter⟩
          exact ⟨registered.trans more, fun result ended =>
            ⟨value, lasts _ _ _ more.keeps (gave value rfl), gaveAfter result ended⟩⟩

theorem mapM {ι : Type} {each : ι → α → Array Callable → Prop} {next : ι → Bridge BindError α}
    (registers : ∀ item, Registers (each item) (next item)) (lasts : ∀ item, Lasts (each item))
    (items : List ι) :
    Registers (fun values callables => List.Forall₂ (fun item value => each item value callables) items values)
      (items.mapM next) := by
  induction items with
  | nil =>
      refine (pure []).mono ?_
      rintro _ callables rfl
      exact .nil
  | cons item rest ih =>
      rw [List.mapM_cons]
      refine ((registers item).bind (lasts item) fun value => ih.bind ?_ fun values =>
        pure (value :: values)).mono ?_
      · exact .forall₂ lasts rest
      · rintro _ callables ⟨value, first, values, others, rfl⟩
        exact .cons first others

end Registers

theorem lasts_registered {callableOf : α → CallableHandle} {callable : Callable} :
    Lasts fun value callables => Registered callables (callableOf value) callable :=
  fun _ _ _ kept => kept _ _

theorem registers_register (callable : Callable) :
    Registers (fun handle callables => Registered callables handle callable) (register callable) := by
  intro world
  rcases Nat.lt_or_ge world.context.callables.size UInt32.size with room | full
  · rw [Host.exec_register_of_room room]
    refine ⟨⟨.push _ _, rfl, rfl⟩, fun handle run => ?_⟩
    rcases Except.ok.inj run with rfl
    exact registered_push room callable
  · rw [Host.exec_register_of_full full]
    exact ⟨.refl world, fun _ impossible => by cases impossible⟩

/-- A callable is registered, and its handle goes into what is given. -/
theorem registers_registerAs {made : CallableHandle → β} (callable : Callable) :
    Registers (fun result callables => ∃ handle, Registered callables handle callable ∧ result = made handle)
      (register callable >>= fun handle => Pure.pure (made handle)) :=
  (registers_register callable).bind lasts_registered fun handle => .pure (made handle)

theorem registers_count (change : BindingCounters → BindingCounters)
    (unchanged : ∀ counters, (change counters).typesBound = counters.typesBound) :
    Registers (fun _ _ => True) (count change) :=
  fun _ => ⟨⟨.refl _, unchanged _, rfl⟩, fun _ _ => trivial⟩

end Bridge

/-- What filling the tables of a type adds to its binding. -/
structure Filling where
  slots : List ((MemberTable × String) × MemberSlot)
  operators : List (Operator × CallableHandle)
  items : Option (CallableHandle × CallableHandle)

def TypeBinding.fill (binding : TypeBinding) (filling : Filling) : TypeBinding :=
  { binding with
    slots := binding.slots.insertAll filling.slots
    operators := binding.operators.insertAll filling.operators
    itemGetter := (filling.items.map Prod.fst).or binding.itemGetter
    itemSetter := (filling.items.map Prod.snd).or binding.itemSetter }

/-- The place of the slot of a member. -/
def CatalogMember.place (member : CatalogMember) : MemberTable × String :=
  (.ofMember member.kind member.isStatic, member.name)

namespace Host

open Bridge

variable (host : Host)

/-- The slot is at the place of the member, and the first callable of the member is registered for it. -/
def MakesSlot (type : TypeRef) (access : MemberAccess) (mode : BindingMode) (member : CatalogMember)
    (made : (MemberTable × String) × MemberSlot) (callables : Array Callable) : Prop :=
  made.1 = member.place ∧ made.2.isBound = (mode == .eager) ∧
    Registered callables made.2.handle (host.initialCallable type access mode member)

def MakesOperator (type : TypeRef) (entry : Operator × List Method) (made : Operator × CallableHandle)
    (callables : Array Callable) : Prop :=
  made.1 = entry.1 ∧ Registered callables made.2 (.ofOperator host.system type entry.1 entry.2)

/-- The accessors of the indexers are registered, if there are any indexers. -/
def MakesItems (type : TypeRef) (indexers : List PropertyDef)
    (items : Option (CallableHandle × CallableHandle)) (callables : Array Callable) : Prop :=
  (indexers = [] ∧ items = none) ∨
    indexers ≠ [] ∧ ∃ getter setter, items = some (getter, setter) ∧
      Registered callables getter (.itemGetter type indexers) ∧ Registered callables setter (.itemSetter type indexers)

/-- The filling has a slot, an operator or an accessor for all that the catalog lists. -/
structure Makes (type : TypeRef) (access : MemberAccess) (mode : BindingMode) (catalog : Catalog)
    (filling : Filling) (callables : Array Callable) : Prop where
  slots : List.Forall₂ (fun member made => host.MakesSlot type access mode member made callables)
    catalog.members filling.slots
  operators : List.Forall₂ (fun entry made => host.MakesOperator type entry made callables)
    catalog.operators.entries filling.operators
  items : MakesItems type catalog.indexers filling.items callables

def registerMembers (type : TypeRef) (access : MemberAccess) (mode : BindingMode) (catalog : Catalog) :
    Bridge BindError Filling := do
  let slots ← catalog.members.mapM (host.installMember type access mode)
  let operators ← catalog.operators.entries.mapM fun entry => do
    return (entry.1, ← Bridge.register (.ofOperator host.system type entry.1 entry.2))
  let items ← installItems type catalog.indexers
  return ⟨slots, operators, items⟩

/-- Registers the callables of all members of a catalog and puts them into the tables of a type. -/
def fillTables (type : TypeRef) (access : MemberAccess) (mode : BindingMode) (catalog : Catalog) :
    Bridge BindError Unit := do
  let filling ← host.registerMembers type access mode catalog
  if !(← Bridge.context).isBound type then throw (.missingBinding (host.fullName type))
  Bridge.modifyContext fun context => context.modifyBinding type (·.fill filling)

theorem installMembers_eq (bind : Binder) (type : TypeRef) (access : MemberAccess) (mode : BindingMode) :
    host.installMembers bind type access mode = (do
      match (← Bridge.context).namespaces.table? type with
      | none => throw (.missingTable (host.fullName type))
      | some table =>
          let catalog := Catalog.ofType host.system type access (← host.extensionMap)
          let current ← Bridge.store
          installConstants bind table
            (catalog.constants.map fun constant => (constant.1, constantValue current constant.2))
          host.fillTables type access mode catalog) := by
  simp only [installMembers, fillTables, registerMembers, bind_assoc, pure_bind]
  rfl

variable (type : TypeRef) (access : MemberAccess) (mode : BindingMode)

theorem lasts_makesSlot (member : CatalogMember) : Lasts (host.MakesSlot type access mode member) :=
  fun _ _ _ kept made => ⟨made.1, made.2.1, kept _ _ made.2.2⟩

theorem lasts_makesOperator (entry : Operator × List Method) : Lasts (host.MakesOperator type entry) :=
  fun _ _ _ kept made => ⟨made.1, kept _ _ made.2⟩

theorem lasts_makesItems (indexers : List PropertyDef) : Lasts (MakesItems type indexers) := by
  rintro _ before after kept (absent | ⟨some, getter, setter, same, first, second⟩)
  · exact .inl absent
  · exact .inr ⟨some, getter, setter, same, kept _ _ first, kept _ _ second⟩

variable {host type access mode} in
theorem Makes.mono {catalog : Catalog} {filling : Filling} {callables more : Array Callable}
    (makes : host.Makes type access mode catalog filling callables) (kept : KeepsCallables callables more) :
    host.Makes type access mode catalog filling more where
  slots := makes.slots.imp fun member _ => host.lasts_makesSlot type access mode member _ _ _ kept
  operators := makes.operators.imp fun entry _ => host.lasts_makesOperator type entry _ _ _ kept
  items := lasts_makesItems type catalog.indexers _ _ _ kept makes.items

theorem registers_installMember (member : CatalogMember) :
    Registers (host.MakesSlot type access mode member) (host.installMember type access mode member) := by
  cases mode with
  | eager =>
      refine ((registers_count .countMember fun _ => rfl).bind (fun _ _ _ _ _ => trivial)
        fun _ => registers_registerAs _).mono ?_
      rintro _ callables ⟨_, -, handle, registered, rfl⟩
      exact ⟨rfl, rfl, registered⟩
  | «lazy» =>
      refine (registers_registerAs _).mono ?_
      rintro _ callables ⟨handle, registered, rfl⟩
      exact ⟨rfl, rfl, registered⟩

theorem registers_registerOperator (entry : Operator × List Method) :
    Registers (host.MakesOperator type entry) (do
      return (entry.1, ← Bridge.register (.ofOperator host.system type entry.1 entry.2))) := by
  refine (registers_registerAs _).mono ?_
  rintro _ callables ⟨handle, registered, rfl⟩
  exact ⟨rfl, registered⟩

theorem registers_installItems (indexers : List PropertyDef) :
    Registers (MakesItems type indexers) (installItems type indexers) := by
  rw [installItems]
  split
  next empty =>
    refine (Registers.pure none).mono ?_
    rintro _ callables rfl
    exact .inl ⟨List.isEmpty_iff.mp empty, rfl⟩
  next some =>
    refine ((registers_register _).bind lasts_registered fun getter => registers_registerAs _).mono ?_
    rintro _ callables ⟨getter, first, setter, second, rfl⟩
    exact .inr ⟨mt List.isEmpty_iff.mpr some, getter, setter, rfl, first, second⟩

theorem registers_registerMembers (catalog : Catalog) :
    Registers (host.Makes type access mode catalog) (host.registerMembers type access mode catalog) := by
  have lastsSlot := host.lasts_makesSlot type access mode
  have lastsOperator := host.lasts_makesOperator type
  have slots := Registers.mapM (host.registers_installMember type access mode) lastsSlot catalog.members
  have operators := Registers.mapM (host.registers_registerOperator type) lastsOperator
    catalog.operators.entries
  have items := registers_installItems type catalog.indexers
  refine (slots.bind (.forall₂ lastsSlot _) fun slots => operators.bind (.forall₂ lastsOperator _)
    fun operators => items.bind (lasts_makesItems type _) fun items =>
      .pure (Filling.mk slots operators items)).mono ?_
  rintro _ callables ⟨slots, first, operators, second, items, third, rfl⟩
  exact ⟨first, second, third⟩

/-- What filling the tables of a type leads to; if it fails, nothing but callables was added. -/
inductive Filled (catalog : Catalog) (before : World) : Except BindError Unit × World → Prop
  | failed {error : BindError} {after : World} (registered : before.OnlyRegistered after) :
      Filled catalog before (.error error, after)
  | filled {filling : Filling} {after : World} (registered : before.OnlyRegistered after)
      (bound : before.context.isBound type = true)
      (makes : host.Makes type access mode catalog filling after.context.callables) :
      Filled catalog before
        (.ok (), { after with context := after.context.modifyBinding type (·.fill filling) })

theorem filled_fillTables (catalog : Catalog) (before : World) :
    host.Filled type access mode catalog before (exec (host.fillTables type access mode catalog) before) := by
  rcases host.registers_registerMembers type access mode catalog before with ⟨registered, makes⟩
  rw [fillTables, exec_bind]
  cases run : exec (host.registerMembers type access mode catalog) before with
  | mk result after =>
      rw [run] at registered makes
      cases result with
      | error error => exact .failed registered
      | ok filling =>
          dsimp only
          rw [exec_bind_of_ok (exec_context after)]
          cases bound : after.context.isBound type with
          | false => exact .failed registered
          | true => exact .filled registered ((registered.isBound_eq type).symm.trans bound) (makes filling rfl)

/-- What installing the constructor of a type leads to; if it fails, nothing but callables was added. -/
inductive Constructed (before : World) : Except BindError Unit × World → Prop
  | absent (none : host.constructorCallable? type = none) : Constructed before (.ok (), before)
  | failed {error : BindError} {after : World} (registered : before.OnlyRegistered after) :
      Constructed before (.error error, after)
  | constructed {callable : Callable} {handle : CallableHandle} {after : World}
      (registered : before.OnlyRegistered after) (bound : before.context.isBound type = true)
      (given : host.constructorCallable? type = some callable)
      (made : Registered after.context.callables handle callable) :
      Constructed before
        (.ok (), { after with context := after.context.modifyBinding type fun binding =>
          { binding with constructor := some handle } })

theorem constructed_installConstructor (before : World) :
    host.Constructed type before (exec (host.installConstructor type) before) := by
  rw [installConstructor]
  cases given : host.constructorCallable? type with
  | none => exact .absent given
  | some callable =>
      rcases registers_register callable before with ⟨registered, made⟩
      dsimp only
      rw [exec_bind]
      cases run : exec (register callable) before with
      | mk result after =>
          rw [run] at registered made
          cases result with
          | error error => exact .failed registered
          | ok handle =>
              dsimp only
              rw [exec_bind_of_ok (exec_context after)]
              cases bound : after.context.isBound type with
              | false => exact .failed registered
              | true =>
                  have boundBefore := (registered.isBound_eq type).symm.trans bound
                  exact .constructed registered boundBefore given (made handle rfl)

end Host

end ScriptBridge
