import ScriptBridge.Binding.NamespaceTree

/-!
# Placing the tables of types

Making the table of a type makes missing tables on the way and writes nothing but
references to tables: every table keeps what it stands for, and every entry that
is data keeps its value. The table that is found or made stands for the type.
-/

namespace ScriptBridge

/-- Whether a value is neither nil nor a table. -/
def ScriptValue.isData : ScriptValue → Bool
  | .nil | .table _ => false
  | _ => true

namespace TableHeap

/-- Tables keep what they stand for and the entries that are data, and none that was there gets more of these. -/
structure Grows (before after : TableHeap) : Prop where
  kind : ∀ id kind, before.kind? id = some kind → after.kind? id = some kind
  data : ∀ id key, (before.get id key).isData = true → after.get id key = before.get id key
  blank : ∀ id key kind, before.kind? id = some kind → (before.get id key).isData = false →
    (after.get id key).isData = false

theorem get_create (heap : TableHeap) (kind : TableKind) (id : TableId) (key : ScriptKey) :
    (heap.create kind).2.get id key = heap.get id key := by
  simp only [get, table?_create]
  split
  next fresh =>
    have absent : heap.table? id = none := by simp [fresh, create, table?]
    rw [absent]
    rfl
  next => rfl

theorem kind?_set (heap : TableHeap) (id other : TableId) (key : ScriptKey) (value : ScriptValue) :
    (heap.set id key value).kind? other = heap.kind? other := by
  simp only [kind?, table?_set]
  split
  next same =>
    rw [same, Option.map_map]
    congr 1
    funext table
    simp only [Function.comp_apply, ScriptTable.set]
    split <;> rfl
  next => rfl

theorem get_set_of_ne (heap : TableHeap) {id other : TableId} (different : other ≠ id) (key otherKey : ScriptKey)
    (value : ScriptValue) : (heap.set id key value).get other otherKey = heap.get other otherKey := by
  simp only [get, table?_set, if_neg different]

theorem kind?_create_self (heap : TableHeap) (kind : TableKind) :
    (heap.create kind).2.kind? (heap.create kind).1 = some kind := by
  rw [kind?, table?_create, if_pos rfl]
  rfl

namespace Grows

variable {before middle after : TableHeap}

theorem refl (heap : TableHeap) : heap.Grows heap := ⟨fun _ _ => id, fun _ _ _ => rfl, fun _ _ _ _ => id⟩

theorem trans (first : before.Grows middle) (second : middle.Grows after) : before.Grows after where
  kind id kind known := second.kind id kind (first.kind id kind known)
  data id key isData := by
    have same := first.data id key isData
    rw [second.data id key (same ▸ isData), same]
  blank id key idKind known noData :=
    second.blank id key idKind (first.kind id idKind known) (first.blank id key idKind known noData)

theorem create (grows : before.Grows after) (kind : TableKind) : before.Grows (after.create kind).2 where
  kind id other known := by
    have present := grows.kind id other known
    rw [kind?, table?_create]
    split
    next fresh =>
      rw [fresh, kind?] at present
      simp [TableHeap.create, table?] at present
    next => exact present
  data id key isData := by
    rw [get_create]
    exact grows.data id key isData
  blank id key idKind known noData := by
    rw [get_create]
    exact grows.blank id key idKind known noData

/-- An entry that was not data at first may be written, with data only if the table is new. -/
theorem set (grows : before.Grows after) {id : TableId} {key : ScriptKey}
    (vacant : (before.get id key).isData = false) {value : ScriptValue}
    (reference : before.kind? id = none ∨ value.isData = false) :
    before.Grows (after.set id key value) where
  kind other kind known := by
    rw [kind?_set]
    exact grows.kind other kind known
  data other otherKey isData := by
    have same := grows.data other otherKey isData
    cases present : after.table? id with
    | none => rwa [TableHeap.set, present]
    | some table =>
        rw [get_set after (by rw [present]; rfl), if_neg, same]
        rintro ⟨rfl, rfl⟩
        rw [vacant] at isData
        cases isData
  blank other otherKey kind known noData := by
    have noDataAfter := grows.blank other otherKey kind known noData
    cases present : after.table? id with
    | none => rwa [TableHeap.set, present]
    | some table =>
        rw [get_set after (by rw [present]; rfl)]
        split
        next same =>
          rw [← same.1, known] at reference
          exact reference.resolve_left (Option.some_ne_none kind)
        next => exact noDataAfter

end Grows

end TableHeap

namespace NamespaceTree

variable {system : TypeSystem} {type : TypeRef}

theorem grows_descend (typeName : String) {segments : List String} {path : String} {current : TableId}
    {heap : TableHeap} {result : TableId × TableHeap}
    (descended : descend typeName segments path current heap = .ok result) : heap.Grows result.2 := by
  induction segments generalizing path current heap with
  | nil =>
      rcases Except.ok.inj descended with rfl
      exact .refl heap
  | cons segment rest ih =>
      rw [descend] at descended
      split at descended
      next next _ => exact ih descended
      next vacant =>
        refine TableHeap.Grows.trans ?_ (ih descended)
        exact ((TableHeap.Grows.refl heap).create _).set (by rw [vacant]; rfl) (.inr rfl)
      next => cases descended

/-- The entries that a new table takes over are those of a table that was there. -/
theorem placeNew_spec (heap : TableHeap) (parent : TableId) (name : String)
    (entries : List (ScriptKey × ScriptValue)) (vacant : (heap.get parent (.string name)).isData = false) :
    heap.Grows (placeNew heap parent name type entries).2 ∧
      (placeNew heap parent name type entries).2.kind? (placeNew heap parent name type entries).1 =
        some (.type type) := by
  -- The table that is made was not there before, so the entries that it takes over replace no data.
  have fresh : ∀ key, (heap.get (heap.create (.type type)).1 key).isData = false := by
    intro key
    simp [TableHeap.get, TableHeap.create, TableHeap.table?, ScriptValue.isData]
  have unknown : heap.kind? (heap.create (.type type)).1 = none := by
    simp [TableHeap.kind?, TableHeap.create, TableHeap.table?]
  have copied : ∀ current : TableHeap, heap.Grows current →
      current.kind? (heap.create (.type type)).1 = some (.type type) →
      let result := entries.foldl (fun heap' entry => heap'.set (heap.create (.type type)).1 entry.1 entry.2) current
      heap.Grows result ∧ result.kind? (heap.create (.type type)).1 = some (.type type) := by
    induction entries with
    | nil => exact fun _ grows kind => ⟨grows, kind⟩
    | cons entry rest ih =>
        intro current grows kind
        exact ih _ (grows.set (fresh entry.1) (.inl unknown)) (by rw [TableHeap.kind?_set]; exact kind)
  rcases copied _ ((TableHeap.Grows.refl heap).create _) (TableHeap.kind?_create_self heap _) with ⟨grows, kind⟩
  exact ⟨grows.set vacant (.inr rfl), by rw [placeNew, TableHeap.kind?_set]; exact kind⟩

/-- The table of the type is there, or is made of a node that is there, or is made where nothing is. -/
theorem placeLeaf_eq_ok {name : String} {parent : TableId} {heap : TableHeap} {result : TableId × TableHeap}
    (placed : placeLeaf system type name parent heap = .ok result) :
    (∃ existing, heap.get parent (.string name) = .table existing ∧ heap.kind? existing = some (.type type) ∧
      result = (existing, heap)) ∨
    (∃ existing path, heap.get parent (.string name) = .table existing ∧ heap.kind? existing = some (.space path) ∧
      result = placeNew heap parent name type (((heap.table? existing).map (·.entries.entries)).getD [])) ∨
    heap.get parent (.string name) = .nil ∧ result = placeNew heap parent name type [] := by
  rw [placeLeaf] at placed
  split at placed
  next existing entry =>
    split at placed
    next other kind =>
      split at placed
      next same => exact .inl ⟨existing, entry, same ▸ kind, (Except.ok.inj placed).symm⟩
      next => cases placed
    next path kind => exact .inr (.inl ⟨existing, path, entry, kind, (Except.ok.inj placed).symm⟩)
    next => cases placed
  next entry => exact .inr (.inr ⟨entry, (Except.ok.inj placed).symm⟩)
  next => cases placed

theorem placeLeaf_spec {name : String} {parent : TableId} {heap : TableHeap} {result : TableId × TableHeap}
    (placed : placeLeaf system type name parent heap = .ok result) :
    heap.Grows result.2 ∧ result.2.kind? result.1 = some (.type type) := by
  rcases placeLeaf_eq_ok placed with ⟨existing, -, kind, rfl⟩ | ⟨existing, path, entry, -, rfl⟩ | ⟨entry, rfl⟩
  · exact ⟨.refl heap, kind⟩
  · exact placeNew_spec heap parent name _ (by rw [entry]; rfl)
  · exact placeNew_spec heap parent name _ (by rw [entry]; rfl)

/-- The tables of types stand for them. -/
def Stands (tree : NamespaceTree) (heap : TableHeap) : Prop :=
  ∀ type table, tree.table? type = some table → heap.kind? table = some (.type type)

theorem Stands.grows {tree : NamespaceTree} {before after : TableHeap} (stands : tree.Stands before)
    (grows : before.Grows after) : tree.Stands after :=
  fun type table placed => grows.kind table _ (stands type table placed)

/-- The table is known already, or the way to it is made, and then it is found or made under its name. -/
theorem place_eq_ok {tree : NamespaceTree} {heap : TableHeap} {table : TableId} {later : NamespaceTree}
    {grown : TableHeap} (placed : tree.place system heap type = .ok (table, later, grown)) :
    (tree.table? type = some table ∧ later = tree ∧ grown = heap) ∨
      tree.table? type = none ∧ later = { tree with byType := tree.byType.insert type table } ∧
        ∃ parent, descend (system.fullName type) (system.segments type).dropLast "" tree.root heap = .ok parent ∧
          placeLeaf system type ((system.segments type).getLastD "") parent.1 parent.2 = .ok (table, grown) := by
  rw [place] at placed
  split at placed
  next known present =>
    obtain ⟨rfl, rfl, rfl⟩ := by simpa using placed
    exact .inl ⟨present, rfl, rfl⟩
  next absent =>
    refine .inr ⟨absent, ?_⟩
    cases descended : descend (system.fullName type) (system.segments type).dropLast "" tree.root heap with
    | error error => simp only [descended, bind, Except.bind, reduceCtorEq] at placed
    | ok parent =>
        cases leaf : placeLeaf system type ((system.segments type).getLastD "") parent.1 parent.2 with
        | error error => simp only [descended, leaf, bind, Except.bind, reduceCtorEq] at placed
        | ok made =>
            simp only [descended, leaf, bind, Except.bind, pure, Except.pure, Except.ok.injEq, Prod.mk.injEq]
              at placed
            rcases placed with ⟨rfl, rfl, rfl⟩
            exact ⟨rfl, parent, rfl, leaf⟩

theorem place_spec {tree : NamespaceTree} {heap : TableHeap} {table : TableId} {later : NamespaceTree}
    {grown : TableHeap} (placed : tree.place system heap type = .ok (table, later, grown)) :
    heap.Grows grown ∧
      (∀ other, later.table? other = if other = type then some table else tree.table? other) ∧
      (tree.Stands heap → grown.kind? table = some (.type type)) := by
  rcases place_eq_ok placed with ⟨present, rfl, rfl⟩ | ⟨-, rfl, parent, descended, leaf⟩
  · refine ⟨.refl _, fun other => ?_, fun stands => stands type table present⟩
    split
    next same => rw [same, present]
    next => rfl
  · rcases placeLeaf_spec leaf with ⟨grows, kind⟩
    exact ⟨(grows_descend _ descended).trans grows, fun other => FinMap.get?_insert _ _ _ _, fun _ => kind⟩

theorem Stands.set {tree : NamespaceTree} {heap : TableHeap} (stands : tree.Stands heap) (id : TableId)
    (key : ScriptKey) (value : ScriptValue) : tree.Stands (heap.set id key value) := by
  intro type table placed
  rw [TableHeap.kind?_set]
  exact stands type table placed

theorem Stands.place {tree : NamespaceTree} {heap : TableHeap} {table : TableId} {later : NamespaceTree}
    {grown : TableHeap} (stands : tree.Stands heap)
    (placed : tree.place system heap type = .ok (table, later, grown)) : later.Stands grown := by
  rcases place_spec placed with ⟨grows, tables, made⟩
  intro other found present
  rw [tables] at present
  split at present
  next same =>
    rcases Option.some.inj present with rfl
    exact same ▸ made stands
  next => exact stands.grows grows other found present

theorem table?_place {tree : NamespaceTree} {heap : TableHeap} {other : TypeRef} {table known : TableId}
    {later : NamespaceTree} {grown : TableHeap}
    (placed : tree.place system heap other = .ok (table, later, grown)) (present : tree.table? type = some known) :
    later.table? type = some known := by
  by_cases same : type = other
  · subst same
    simp only [place, present, Except.ok.injEq, Prod.mk.injEq] at placed
    rw [← placed.2.1, present]
  · rw [(place_spec placed).2.1, if_neg same, present]

end NamespaceTree

end ScriptBridge
