import ScriptBridge.Proofs.Namespaces.Mapped

/-!
# Contexts that are laid out alike

Two contexts may differ in the numbers of their tables, callables and proxies and be the
same otherwise. Where the same types are bound and settled, their bindings are the same in
this sense; and where the tables lead to the bound types only, so are the tables.
-/

namespace ScriptBridge

namespace Context

/-- Handles that stand for the same callable, each in its context. -/
def SameCallable (one other : Context) (handle otherHandle : CallableHandle) : Prop :=
  ∃ callable, one.callable? handle = some callable ∧ other.callable? otherHandle = some callable

/-- Slots of the same member, which is made in both contexts or waits in both. -/
structure SameSlot (one other : Context) (slot otherSlot : MemberSlot) : Prop where
  isBound : slot.isBound = otherSlot.isBound
  callable : one.SameCallable other slot.handle otherSlot.handle

/-- Bindings with the same members under the same names, the same accessors and the same constructor. -/
structure SameBinding (one other : Context) (binding otherBinding : TypeBinding) : Prop where
  slots : ∀ place, Option.Rel (one.SameSlot other) (binding.slots.get? place) (otherBinding.slots.get? place)
  operators : ∀ operator, Option.Rel (one.SameCallable other) (binding.operators.get? operator)
    (otherBinding.operators.get? operator)
  itemGetter : Option.Rel (one.SameCallable other) binding.itemGetter otherBinding.itemGetter
  itemSetter : Option.Rel (one.SameCallable other) binding.itemSetter otherBinding.itemSetter
  constructor : Option.Rel (one.SameCallable other) binding.constructor otherBinding.constructor
  rest : otherBinding =
    { binding with
      slots := otherBinding.slots
      operators := otherBinding.operators
      itemGetter := otherBinding.itemGetter
      itemSetter := otherBinding.itemSetter
      constructor := otherBinding.constructor
      classTable := otherBinding.classTable }

/-- The same types are bound, and each has the same binding. -/
def SameBindings (one other : Context) : Prop :=
  ∀ type, Option.Rel (one.SameBinding other) (one.binding? type) (other.binding? type)

/-- Entries that show the same host value, stand for the same callable, or lead to tables of the same kind. -/
inductive SameEntry (one other : Context) : ScriptValue → ScriptValue → Prop
  | nothing : SameEntry one other .nil .nil
  | value {value : HostValue} {shown otherShown : ScriptValue} (shows : one.cache.Shows shown value)
      (otherShows : other.cache.Shows otherShown value) : SameEntry one other shown otherShown
  | function {handle otherHandle : CallableHandle} (same : one.SameCallable other handle otherHandle) :
      SameEntry one other (.function handle) (.function otherHandle)
  | table {id otherId : TableId} (same : one.heap.kind? id = other.heap.kind? otherId) :
      SameEntry one other (.table id) (.table otherId)

/-- Tables that stand for the same and have the same entries under the same names. -/
structure SameTable (one other : Context) (id otherId : TableId) : Prop where
  kind : one.heap.kind? id = other.heap.kind? otherId
  entries : ∀ name, one.SameEntry other (one.heap.get id (.string name)) (other.heap.get otherId (.string name))

/-- The same dotted paths lead to the same tables. -/
def SameTables (one other : Context) : Prop :=
  ∀ path, Option.Rel (one.SameTable other) (one.heap.walk? one.namespaces.root path)
    (other.heap.walk? other.namespaces.root path)

/-- Every type that is bound is at the end of its dotted path, at the table of its binding. -/
def Reached (system : TypeSystem) (context : Context) : Prop :=
  ∀ type binding, context.binding? type = some binding →
    context.heap.walk? context.namespaces.root (system.segments type) = some binding.classTable ∧
      context.heap.kind? binding.classTable = some (.type type)

/-- Just the given types are bound, and they are settled. -/
structure LaidOut (host : Host) (config : Config) (store : HostStore) (among : TypeRef → Prop) (context : Context) :
    Prop where
  bound : ∀ type, context.isBound type = true ↔ among type
  settled : ∀ type, among type → context.Settled host config store type

variable {host : Host} {config : Config} {store : HostStore} {among : TypeRef → Prop} {one other : Context}
  {type : TypeRef} {settlement otherSettlement : Settlement}

/-! ## Bindings -/

theorem rel_items {indexers : List PropertyDef} {items otherItems : Option (CallableHandle × CallableHandle)}
    (makes : Host.MakesItems type indexers items one.callables)
    (otherMakes : Host.MakesItems type indexers otherItems other.callables) :
    Option.Rel
      (fun pair otherPair => one.SameCallable other pair.1 otherPair.1 ∧ one.SameCallable other pair.2 otherPair.2)
      items otherItems := by
  rcases makes with ⟨empty, rfl⟩ | ⟨some, getter, setter, rfl, first, second⟩
  · rcases otherMakes with ⟨-, rfl⟩ | ⟨some, -⟩
    · exact .none
    · exact absurd empty some
  · rcases otherMakes with ⟨empty, -⟩ | ⟨-, otherGetter, otherSetter, rfl, otherFirst, otherSecond⟩
    · exact absurd empty some
    · exact .some ⟨⟨_, first, otherFirst⟩, ⟨_, second, otherSecond⟩⟩

theorem SettledBy.sameBinding (settled : one.SettledBy host config store type settlement)
    (otherSettled : other.SettledBy host config store type otherSettlement) :
    one.SameBinding other (settlement.binding host config type) (otherSettlement.binding host config type) where
  slots := by
    refine @FinMap.rel_insertAll _ _ _ _ (fun _ => one.SameSlot other) _ _ ?_ _ _ fun _ => .none
    refine forall₂_of_items settled.makes.slots otherSettled.makes.slots ?_
    rintro member made otherMade ⟨place, isBound, registered⟩ ⟨otherPlace, otherIsBound, otherRegistered⟩
    exact ⟨place.trans otherPlace.symm, isBound.trans otherIsBound.symm, _, registered, otherRegistered⟩
  operators := by
    refine @FinMap.rel_insertAll _ _ _ _ (fun _ => one.SameCallable other) _ _ ?_ _ _ fun _ => .none
    refine forall₂_of_items settled.makes.operators otherSettled.makes.operators ?_
    rintro entry made otherMade ⟨operator, registered⟩ ⟨otherOperator, otherRegistered⟩
    exact ⟨operator.trans otherOperator.symm, _, registered, otherRegistered⟩
  itemGetter := by
    have items := rel_items settled.makes.items otherSettled.makes.items
    simp only [Settlement.binding, TypeBinding.fill, TypeBinding.bare, Option.or_none]
    exact FinMap.rel_map items fun _ _ => And.left
  itemSetter := by
    have items := rel_items settled.makes.items otherSettled.makes.items
    simp only [Settlement.binding, TypeBinding.fill, TypeBinding.bare, Option.or_none]
    exact FinMap.rel_map items fun _ _ => And.right
  constructor := by
    have constructs := settled.constructs
    have otherConstructs := otherSettled.constructs
    rw [Host.Constructs] at constructs otherConstructs
    change Option.Rel _ settlement.constructor otherSettlement.constructor
    split at constructs
    next none =>
      rw [none] at otherConstructs
      rw [constructs, otherConstructs]
      exact .none
    next callable given =>
      rw [given] at otherConstructs
      rcases constructs with ⟨handle, same, registered⟩
      rcases otherConstructs with ⟨otherHandle, otherSame, otherRegistered⟩
      rw [same, otherSame]
      exact .some ⟨callable, registered, otherRegistered⟩
  rest := rfl

theorem LaidOut.sameBindings (laidOut : one.LaidOut host config store among)
    (otherLaidOut : other.LaidOut host config store among) : one.SameBindings other := by
  intro type
  by_cases present : among type
  · rcases laidOut.settled type present with ⟨settlement, settled⟩
    rcases otherLaidOut.settled type present with ⟨otherSettlement, otherSettled⟩
    rw [settled.bound, otherSettled.bound]
    exact .some (settled.sameBinding otherSettled)
  · have unbound : ∀ {context : Context}, context.LaidOut host config store among → context.binding? type = none :=
      fun laid => Option.not_isSome_iff_eq_none.mp fun bound => present ((laid.bound type).mp bound)
    rw [unbound laidOut, unbound otherLaidOut]
    exact .none

/-! ## Tables -/

theorem eq_function_of_shows {cache : IdentityCache} {shown : ScriptValue} {cast : CallableHandle}
    (shows : cache.Shows shown (Host.castValue type cast)) : shown = .function cast := by
  simpa [IdentityCache.Shows, Host.castValue, HostValue.toScript?] using shows

/-- There is no data under a name that a settled type does not hand out. -/
theorem SettledBy.blank (settled : one.SettledBy host config store type settlement)
    (mapped : one.Mapped host config store) {cast : HostValue} {name : String}
    (absent : (host.handedOutWith type config.access store cast).get? name = none) :
    (one.heap.get settlement.table (.string name)).isData = false := by
  refine Bool.eq_false_iff.mpr fun isData => ?_
  have handedOut := mapped.names type settlement.table name settled.displays.placed isData
  rw [Host.handedOut_eq, host.isSome_handedOutWith type _ _ .null cast, absent] at handedOut
  cases handedOut

/-- What the tables of a settled type have under a name is the same, unless there is no data in either. -/
theorem SettledBy.sameData (settled : one.SettledBy host config store type settlement)
    (otherSettled : other.SettledBy host config store type otherSettlement) (mapped : one.Mapped host config store)
    (otherMapped : other.Mapped host config store) (name : String) :
    one.SameEntry other (one.heap.get settlement.table (.string name))
        (other.heap.get otherSettlement.table (.string name)) ∨
      (one.heap.get settlement.table (.string name)).isData = false ∧
        (other.heap.get otherSettlement.table (.string name)).isData = false := by
  have displays := settled.displays
  have otherDisplays := otherSettled.displays
  have same := host.rel_handedOutWith type config.access store (Host.castValue type settlement.cast)
    (Host.castValue type otherSettlement.cast) name
  generalize found : (host.handedOutWith type config.access store (Host.castValue type settlement.cast)).get? name =
    shown at same
  generalize otherFound : (host.handedOutWith type config.access store
    (Host.castValue type otherSettlement.cast)).get? name = otherShown at same
  cases same with
  | none => exact .inr ⟨settled.blank mapped found, otherSettled.blank otherMapped otherFound⟩
  | @some value otherValue related =>
      rcases related with rfl | ⟨isEnumeration, rfl, rfl⟩
      · cases isNull : value.isNull with
        | true =>
            exact .inr ⟨displays.blanks name value found isNull, otherDisplays.blanks name value otherFound isNull⟩
        | false =>
            exact .inl (.value (displays.entries name value found isNull)
              (otherDisplays.entries name value otherFound isNull))
      · rw [eq_function_of_shows (displays.entries name _ found rfl),
          eq_function_of_shows (otherDisplays.entries name _ otherFound rfl)]
        exact .inl (.function ⟨_, settled.casts isEnumeration, otherSettled.casts isEnumeration⟩)

section Mapped

variable (laidOut : one.LaidOut host config store among) (otherLaidOut : other.LaidOut host config store among)
  (mapped : one.Mapped host config store) (otherMapped : other.Mapped host config store)

include laidOut otherLaidOut mapped otherMapped

/-- A path that leads somewhere in one context does so in the other. -/
theorem LaidOut.exists_walk? {path : List String} {id : TableId}
    (found : one.heap.walk? one.namespaces.root path = some id) :
    ∃ otherId, other.heap.walk? other.namespaces.root path = some otherId := by
  rcases (mapped.orderly.leads path id found).of_unregistered with rfl | ⟨type, bound, rest, onWay⟩
  · exact ⟨_, rfl⟩
  · rcases otherLaidOut.settled type ((laidOut.bound type).mp bound) with ⟨settlement, settled⟩
    have reached := (otherMapped.orderly.walk?_segments settled.displays.placed).1
    rw [show host.unregistered.system.segments type = path ++ rest from onWay.symm, TableHeap.walk?_append] at reached
    rcases Option.bind_eq_some_iff.mp reached with ⟨otherId, there, -⟩
    exact ⟨otherId, there⟩

theorem LaidOut.kind?_of_type {path : List String} {id otherId : TableId}
    (found : one.heap.walk? one.namespaces.root path = some id)
    (otherFound : other.heap.walk? other.namespaces.root path = some otherId)
    (kind : one.heap.kind? id = some (.type type)) : other.heap.kind? otherId = some (.type type) := by
  rcases (mapped.orderly.types path id type).mp ⟨found, kind⟩ with ⟨placed, rfl⟩
  rcases otherLaidOut.settled type ((laidOut.bound type).mp (mapped.bound type id placed)) with ⟨settlement, settled⟩
  have reached := otherMapped.orderly.walk?_segments settled.displays.placed
  rw [otherFound] at reached
  rw [Option.some.inj reached.1, reached.2]

theorem LaidOut.kind?_eq {path : List String} {id otherId : TableId}
    (found : one.heap.walk? one.namespaces.root path = some id)
    (otherFound : other.heap.walk? other.namespaces.root path = some otherId) :
    one.heap.kind? id = other.heap.kind? otherId := by
  rcases mapped.orderly.kinds path id found with ⟨kind, known, notPlain⟩
  rcases otherMapped.orderly.kinds path otherId otherFound with ⟨otherKind, otherKnown, otherNotPlain⟩
  rw [known, otherKnown]
  cases kind with
  | plain => exact absurd rfl notPlain
  | type type =>
      rw [← otherKnown]
      exact (laidOut.kind?_of_type otherLaidOut mapped otherMapped found otherFound known).symm
  | space text =>
      cases otherKind with
      | plain => exact absurd rfl otherNotPlain
      | type type =>
          have impossible := otherLaidOut.kind?_of_type laidOut otherMapped mapped otherFound found otherKnown
          rw [known] at impossible
          cases impossible
      | space otherText =>
          rw [mapped.orderly.texts path id text found known,
            otherMapped.orderly.texts path otherId otherText otherFound otherKnown]

/-- The tables at the end of a path have data under the same names, and it is the same. -/
theorem LaidOut.sameData {path : List String} {id otherId : TableId}
    (found : one.heap.walk? one.namespaces.root path = some id)
    (otherFound : other.heap.walk? other.namespaces.root path = some otherId) (name : String) :
    one.SameEntry other (one.heap.get id (.string name)) (other.heap.get otherId (.string name)) ∨
      (one.heap.get id (.string name)).isData = false ∧ (other.heap.get otherId (.string name)).isData = false := by
  have same := laidOut.kind?_eq otherLaidOut mapped otherMapped found otherFound
  rcases mapped.orderly.kinds path id found with ⟨kind, known, notPlain⟩
  cases kind with
  | plain => exact absurd rfl notPlain
  | space text =>
      exact .inr ⟨mapped.orderly.notData_of_space found known name,
        otherMapped.orderly.notData_of_space otherFound (same ▸ known) name⟩
  | type type =>
      have placed := ((mapped.orderly.types path id type).mp ⟨found, known⟩).1
      have otherPlaced := ((otherMapped.orderly.types path otherId type).mp ⟨otherFound, same ▸ known⟩).1
      have present := (laidOut.bound type).mp (mapped.bound type id placed)
      rcases laidOut.settled type present with ⟨settlement, settled⟩
      rcases otherLaidOut.settled type present with ⟨otherSettlement, otherSettled⟩
      rcases Option.some.inj (placed.symm.trans settled.displays.placed) with rfl
      rcases Option.some.inj (otherPlaced.symm.trans otherSettled.displays.placed) with rfl
      exact settled.sameData otherSettled mapped otherMapped name

theorem LaidOut.sameTable {path : List String} {id otherId : TableId}
    (found : one.heap.walk? one.namespaces.root path = some id)
    (otherFound : other.heap.walk? other.namespaces.root path = some otherId) : one.SameTable other id otherId where
  kind := laidOut.kind?_eq otherLaidOut mapped otherMapped found otherFound
  entries name := by
    rcases laidOut.sameData otherLaidOut mapped otherMapped found otherFound name with same | ⟨noData, otherNoData⟩
    · exact same
    -- What is no data is nothing or a table, and then the path goes on in both contexts.
    have leads := Shaped.walk?_child found name
    have otherLeads := Shaped.walk?_child otherFound name
    cases entry : one.heap.get id (.string name) with
    | table next =>
        rw [TableHeap.child?_eq_some.mpr entry] at leads
        rcases laidOut.exists_walk? otherLaidOut mapped otherMapped leads with ⟨otherNext, reached⟩
        rw [TableHeap.child?_eq_some.mp (otherLeads.symm.trans reached)]
        exact .table (laidOut.kind?_eq otherLaidOut mapped otherMapped leads reached)
    | nil =>
        cases otherEntry : other.heap.get otherId (.string name) with
        | nil => exact .nothing
        | table otherNext =>
            rw [TableHeap.child?_eq_some.mpr otherEntry] at otherLeads
            rcases otherLaidOut.exists_walk? laidOut otherMapped mapped otherLeads with ⟨next, reached⟩
            rw [TableHeap.child?_eq_some.mp (leads.symm.trans reached)] at entry
            cases entry
        | _ => rw [otherEntry] at otherNoData; cases otherNoData
    | _ => rw [entry] at noData; cases noData

theorem LaidOut.sameTables : one.SameTables other := by
  intro path
  cases found : one.heap.walk? one.namespaces.root path with
  | none =>
      cases otherFound : other.heap.walk? other.namespaces.root path with
      | none => exact .none
      | some otherId =>
          rcases otherLaidOut.exists_walk? laidOut otherMapped mapped otherFound with ⟨id, reached⟩
          rw [found] at reached
          cases reached
  | some id =>
      rcases laidOut.exists_walk? otherLaidOut mapped otherMapped found with ⟨otherId, otherFound⟩
      rw [otherFound]
      exact .some (laidOut.sameTable otherLaidOut mapped otherMapped found otherFound)

omit otherLaidOut otherMapped in
/-- Every type that is bound is at the end of its path. -/
theorem LaidOut.reached : one.Reached host.system := by
  intro type binding bound
  rcases laidOut.settled type ((laidOut.bound type).mp (Option.isSome_of_mem bound)) with ⟨settlement, settled⟩
  rcases Option.some.inj (bound.symm.trans settled.bound) with rfl
  exact mapped.orderly.walk?_segments settled.displays.placed

end Mapped

end Context

end ScriptBridge
