import ScriptBridge.Proofs.Maps
import ScriptBridge.Proofs.Tables.Placement

/-!
# The shape of the namespace tree

Tables that are entered under names form a tree below the root: no table has two
paths, a table of a type stands at the path of the type, and the other tables are
nodes of the tree. All that placing a type does to the tables is to enter a new
table under a name of a table of the tree, at a path where nothing was or where a
node was whose entries the new table has. That keeps the shape, and leads every
other path to where it led before.
-/

namespace ScriptBridge

namespace TableHeap

/-- The table under a name of a table. -/
def child? (heap : TableHeap) (id : TableId) (name : String) : Option TableId :=
  match heap.get id (.string name) with
  | .table next => some next
  | _ => none

/-- The table at the end of a path from a table. -/
def walk? (heap : TableHeap) (start : TableId) (path : List String) : Option TableId :=
  path.foldlM heap.child? start

theorem child?_eq_some {heap : TableHeap} {id next : TableId} {name : String} :
    heap.child? id name = some next ↔ heap.get id (.string name) = .table next := by
  rw [child?]
  split <;> simp_all

theorem walk?_root (heap : TableHeap) (root : TableId) : heap.walk? root [] = some root := rfl

theorem walk?_append (heap : TableHeap) (start : TableId) (path rest : List String) :
    heap.walk? start (path ++ rest) = (heap.walk? start path).bind (heap.walk? · rest) := by
  rw [walk?, List.foldlM_append]
  rfl

theorem walk?_concat (heap : TableHeap) (start : TableId) (path : List String) (name : String) :
    heap.walk? start (path ++ [name]) = (heap.walk? start path).bind (heap.child? · name) := by
  rw [walk?_append]
  congr 1
  funext id
  exact bind_pure _

/-- No key of a table has two entries. -/
def Distinct (heap : TableHeap) : Prop :=
  ∀ id table, heap.table? id = some table → table.entries.keys.Nodup

namespace Distinct

variable {heap : TableHeap}

theorem create (distinct : heap.Distinct) (kind : TableKind) : (heap.create kind).2.Distinct := by
  intro id table found
  rw [table?_create] at found
  split at found
  next =>
    rcases Option.some.inj found with rfl
    exact List.nodup_nil
  next => exact distinct id table found

theorem set (distinct : heap.Distinct) (id : TableId) (key : ScriptKey) (value : ScriptValue) :
    (heap.set id key value).Distinct := by
  intro other table found
  rw [table?_set] at found
  split at found
  next =>
    rcases Option.map_eq_some_iff.mp found with ⟨before, present, rfl⟩
    rw [ScriptTable.set]
    split
    next => exact FinMap.nodup_keys_erase (distinct id before present) key
    next => exact FinMap.nodup_keys_insert (distinct id before present) key value
  next => exact distinct other table found

end Distinct

/-- Writes the entries to a table in their order. -/
def setAll (heap : TableHeap) (id : TableId) (entries : List (ScriptKey × ScriptValue)) : TableHeap :=
  entries.foldl (fun heap entry => heap.set id entry.1 entry.2) heap

theorem Distinct.setAll {heap : TableHeap} (distinct : heap.Distinct) (id : TableId)
    (entries : List (ScriptKey × ScriptValue)) : (heap.setAll id entries).Distinct := by
  induction entries generalizing heap with
  | nil => exact distinct
  | cons entry rest ih => exact ih (distinct.set id entry.1 entry.2)

theorem kind?_setAll (heap : TableHeap) (id other : TableId) (entries : List (ScriptKey × ScriptValue)) :
    (heap.setAll id entries).kind? other = heap.kind? other := by
  induction entries generalizing heap with
  | nil => rfl
  | cons entry rest ih => exact (ih _).trans (kind?_set heap id other entry.1 entry.2)

theorem isSome_table? {heap : TableHeap} {id : TableId} {kind : TableKind} (known : heap.kind? id = some kind) :
    (heap.table? id).isSome := by
  rcases Option.map_eq_some_iff.mp known with ⟨table, found, -⟩
  exact Option.isSome_of_mem found

/-- Of distinct keys, each has the value that was written to it. -/
theorem get_setAll {heap : TableHeap} {id : TableId} {kind : TableKind} (known : heap.kind? id = some kind)
    {entries : List (ScriptKey × ScriptValue)} (distinct : (entries.map Prod.fst).Nodup) (other : TableId)
    (key : ScriptKey) :
    (heap.setAll id entries).get other key =
      if other = id then (FinMap.lookup key entries).getD (heap.get id key) else heap.get other key := by
  induction entries generalizing heap with
  | nil => by_cases same : other = id <;> simp [setAll, FinMap.lookup, same]
  | cons entry rest ih =>
      rw [List.map_cons, List.nodup_cons] at distinct
      have written := get_set heap (isSome_table? known)
      rw [setAll, List.foldl_cons, ← setAll, ih (by rw [kind?_set]; exact known) distinct.2, written, written]
      by_cases sameKey : entry.1 = key
      · subst sameKey
        simp only [FinMap.lookup_eq_none distinct.1, Option.getD_none, FinMap.lookup, if_true, Option.getD_some,
          and_self, and_true]
        split <;> rfl
      · simp only [FinMap.lookup, if_neg sameKey, Ne.symm sameKey, and_false, if_false]

theorem kind?_create (heap : TableHeap) (kind : TableKind) (id : TableId) :
    (heap.create kind).2.kind? id = if id = (heap.create kind).1 then some kind else heap.kind? id := by
  rw [kind?, table?_create]
  split <;> simp_all [kind?, ScriptTable.ofKind]

/-- The entries of a table, none of an unknown one. -/
def entriesOf (heap : TableHeap) (id : TableId) : List (ScriptKey × ScriptValue) :=
  ((heap.table? id).map (·.entries.entries)).getD []

theorem lookup_entriesOf (heap : TableHeap) (id : TableId) (key : ScriptKey) :
    (FinMap.lookup key (heap.entriesOf id)).getD .nil = heap.get id key := by
  rw [entriesOf, get]
  cases heap.table? id <;> rfl

theorem Distinct.entriesOf {heap : TableHeap} (distinct : heap.Distinct) (id : TableId) :
    ((heap.entriesOf id).map Prod.fst).Nodup := by
  rw [TableHeap.entriesOf]
  cases found : heap.table? id with
  | none => exact List.nodup_nil
  | some table => exact distinct id table found

/-- A new table under a name of a table, with some entries. -/
def graft (heap : TableHeap) (parent : TableId) (name : String) (kind : TableKind)
    (entries : List (ScriptKey × ScriptValue)) : TableId × TableHeap :=
  let (id, heap) := heap.create kind
  (id, (heap.setAll id entries).set parent (.string name) (.table id))

section Graft

variable {heap : TableHeap} {parent : TableId} {name : String} {kind : TableKind}
  {entries : List (ScriptKey × ScriptValue)}

/-- The table that is made was not there before. -/
theorem kind?_graft_new (heap : TableHeap) (parent : TableId) (name : String) (kind : TableKind)
    (entries : List (ScriptKey × ScriptValue)) : heap.kind? (heap.graft parent name kind entries).1 = none := by
  simp [graft, create, kind?, table?]

theorem kind?_graft (heap : TableHeap) (parent : TableId) (name : String) (kind : TableKind)
    (entries : List (ScriptKey × ScriptValue)) (id : TableId) :
    (heap.graft parent name kind entries).2.kind? id =
      if id = (heap.graft parent name kind entries).1 then some kind else heap.kind? id := by
  rw [graft, kind?_set, kind?_setAll, kind?_create]

theorem Distinct.graft (distinct : heap.Distinct) (parent : TableId) (name : String) (kind : TableKind)
    (entries : List (ScriptKey × ScriptValue)) : (heap.graft parent name kind entries).2.Distinct :=
  ((distinct.create kind).setAll _ entries).set _ _ _

theorem get_graft {parentKind : TableKind} (known : heap.kind? parent = some parentKind)
    (distinct : (entries.map Prod.fst).Nodup) (id : TableId) (key : ScriptKey) :
    (heap.graft parent name kind entries).2.get id key =
      if id = parent ∧ key = .string name then .table (heap.graft parent name kind entries).1
      else if id = (heap.graft parent name kind entries).1 then (FinMap.lookup key entries).getD .nil
      else heap.get id key := by
  have parentStays : (((heap.create kind).2.setAll (heap.create kind).1 entries).table? parent).isSome := by
    refine @isSome_table? _ _ parentKind ?_
    rw [kind?_setAll, kind?_create, if_neg]
    · exact known
    · rintro rfl
      simp [create, kind?, table?] at known
  have blank : (heap.create kind).2.get (heap.create kind).1 key = .nil := by
    rw [get, table?_create, if_pos rfl]
    rfl
  rw [graft, get_set _ parentStays, get_setAll (kind?_create_self heap kind) distinct, blank, get_create]

/-- A new table has no data under a key under which it takes over none. -/
theorem blank_graft {parentKind : TableKind} (known : heap.kind? parent = some parentKind)
    (distinct : (entries.map Prod.fst).Nodup) {key : ScriptKey}
    (blank : ((FinMap.lookup key entries).getD .nil).isData = false) :
    ((heap.graft parent name kind entries).2.get (heap.graft parent name kind entries).1 key).isData = false := by
  rw [get_graft known distinct]
  split
  · rfl
  · rwa [if_pos rfl]

end Graft

/-- Entries are those of the table at a path; there are none where no table is. -/
structure TakesOver (heap : TableHeap) (root : TableId) (path : List String)
    (entries : List (ScriptKey × ScriptValue)) : Prop where
  distinct : (entries.map Prod.fst).Nodup
  values : ∀ key, (FinMap.lookup key entries).getD .nil = ((heap.walk? root path).map (heap.get · key)).getD .nil

theorem takesOver_nil {heap : TableHeap} {root : TableId} {path : List String} (nothing : heap.walk? root path = none) :
    heap.TakesOver root path [] where
  distinct := List.nodup_nil
  values key := by rw [nothing]; rfl

end TableHeap

/--
The tables below a root are a tree in which exactly the tables of the types that
were placed stand at the paths of these types.
-/
structure Shaped (system : TypeSystem) (placed : TypeRef → TableId → Prop) (root : TableId) (heap : TableHeap) :
    Prop where
  distinct : heap.Distinct
  kinds : ∀ path id, heap.walk? root path = some id → ∃ kind, heap.kind? id = some kind ∧ kind ≠ .plain
  once : ∀ path other id, heap.walk? root path = some id → heap.walk? root other = some id → path = other
  types : ∀ path id type, heap.walk? root path = some id ∧ heap.kind? id = some (.type type) ↔
    placed type id ∧ path = system.segments type

namespace Shaped

variable {system : TypeSystem} {placed : TypeRef → TableId → Prop} {root : TableId} {heap : TableHeap}

theorem walk?_segments (shaped : Shaped system placed root heap) {type : TypeRef} {id : TableId}
    (known : placed type id) :
    heap.walk? root (system.segments type) = some id ∧ heap.kind? id = some (.type type) :=
  (shaped.types _ id type).mpr ⟨known, rfl⟩

/-- A type was placed at one table. -/
theorem placed_unique (shaped : Shaped system placed root heap) {type : TypeRef} {id other : TableId}
    (known : placed type id) (again : placed type other) : id = other :=
  Option.some.inj ((shaped.walk?_segments known).1.symm.trans (shaped.walk?_segments again).1)

/-- Of the types of one path, at most one was placed. -/
theorem type_unique (shaped : Shaped system placed root heap) {type other : TypeRef} {id otherId : TableId}
    (known : placed type id) (otherKnown : placed other otherId)
    (same : system.segments other = system.segments type) : other = type := by
  have sameTable : otherId = id :=
    Option.some.inj
      ((same ▸ (shaped.walk?_segments otherKnown).1).symm.trans (shaped.walk?_segments known).1)
  have sameKind := (shaped.walk?_segments otherKnown).2.symm.trans (sameTable ▸ (shaped.walk?_segments known).2)
  exact TableKind.type.inj (Option.some.inj sameKind)

theorem takesOver_entriesOf (shaped : Shaped system placed root heap) {path : List String} {node : TableId}
    (found : heap.walk? root path = some node) : heap.TakesOver root path (heap.entriesOf node) where
  distinct := shaped.distinct.entriesOf node
  values key := by rw [found, TableHeap.lookup_entriesOf]; rfl

section Graft

variable {way : List String} {parent : TableId} {name : String} {kind : TableKind}
  {entries : List (ScriptKey × ScriptValue)}

theorem ne_graft (shaped : Shaped system placed root heap) {path : List String} {id : TableId}
    (found : heap.walk? root path = some id) : id ≠ (heap.graft parent name kind entries).1 := by
  intro same
  rcases shaped.kinds path id found with ⟨idKind, known, -⟩
  rw [same, TableHeap.kind?_graft_new] at known
  cases known

/--
Entering a new table at a path leads every other path to where it led before, if
the new table has the entries of the table that was there.
-/
theorem walk?_graft (shaped : Shaped system placed root heap) (reached : heap.walk? root way = some parent)
    (taken : heap.TakesOver root (way ++ [name]) entries) (path : List String) :
    (heap.graft parent name kind entries).2.walk? root path =
      if path = way ++ [name] then some (heap.graft parent name kind entries).1 else heap.walk? root path := by
  rcases shaped.kinds way parent reached with ⟨parentKind, known, -⟩
  have entry := @TableHeap.get_graft heap parent name kind entries parentKind known taken.distinct
  have newChild : ∀ key, (heap.graft parent name kind entries).2.child? (heap.graft parent name kind entries).1 key =
      (heap.walk? root (way ++ [name])).bind (heap.child? · key) := by
    intro key
    rw [TableHeap.child?, entry, if_neg (fun both => shaped.ne_graft reached both.1.symm), if_pos rfl, taken.values]
    cases heap.walk? root (way ++ [name]) <;> rfl
  -- The last name of a path decides: only the entry of the new table and its own entries are new.
  induction path using List.reverseRecOn with
  | nil => simp [TableHeap.walk?]
  | append_singleton path last ih =>
      rw [TableHeap.walk?_concat, ih, TableHeap.walk?_concat heap]
      by_cases atNew : path = way ++ [name]
      · subst atNew
        rw [if_pos rfl, if_neg (by simp)]
        exact newChild last
      · rw [if_neg atNew]
        cases before : heap.walk? root path with
        | none =>
            rw [if_neg]
            · rfl
            · intro same
              rw [(List.append_inj_left' same rfl), reached] at before
              cases before
        | some id =>
            simp only [Option.bind_some, TableHeap.child?, entry, if_neg (shaped.ne_graft before),
              ScriptKey.string.injEq]
            by_cases changed : path ++ [last] = way ++ [name]
            · have samePath := List.append_inj_left' changed rfl
              have sameName := List.append_inj_right' changed rfl
              rw [samePath, reached] at before
              rw [if_pos ⟨(Option.some.inj before).symm, List.singleton_inj.mp sameName⟩, if_pos changed]
            · rw [if_neg changed, if_neg]
              rintro ⟨rfl, rfl⟩
              exact changed (by rw [shaped.once path way id before reached])

/-- Entering a new table of the tree keeps the shape, if no table of a type was at its path. -/
theorem graft (shaped : Shaped system placed root heap) (reached : heap.walk? root way = some parent)
    (taken : heap.TakesOver root (way ++ [name]) entries)
    (free : ∀ type id, placed type id → system.segments type ≠ way ++ [name]) (notPlain : kind ≠ .plain)
    (own : ∀ type, kind = .type type → system.segments type = way ++ [name]) :
    Shaped system (fun type id => placed type id ∨ kind = .type type ∧ id = (heap.graft parent name kind entries).1)
      root (heap.graft parent name kind entries).2 := by
  have walked := @walk?_graft system placed root heap way parent name kind entries shaped reached taken
  have kinds := TableHeap.kind?_graft heap parent name kind entries
  have changed := shaped.distinct.graft parent name kind entries
  have old : ∀ path id, heap.walk? root path = some id → id ≠ (heap.graft parent name kind entries).1 :=
    fun path id found => shaped.ne_graft found
  generalize heap.graft parent name kind entries = made at *
  -- A path leads to the new table if it is the path of this table, and else to where it led before.
  refine ⟨changed, fun path id found => ?_, fun path other id found again => ?_, fun path id type => ?_⟩
  · rw [walked] at found
    rw [kinds]
    split at found
    next => exact ⟨kind, by rw [if_pos (Option.some.inj found).symm], notPlain⟩
    next => simpa only [if_neg (old path id found)] using shaped.kinds path id found
  · rw [walked] at found again
    split at found
    next atNew =>
      split at again
      next otherAtNew => rw [atNew, otherAtNew]
      next => exact absurd (Option.some.inj found).symm (old other id again)
    next =>
      split at again
      next => exact absurd (Option.some.inj again).symm (old path id found)
      next => exact shaped.once path other id found again
  · rw [walked, kinds]
    constructor
    · rintro ⟨found, known⟩
      split at found
      next atNew =>
        rcases Option.some.inj found with rfl
        rw [if_pos rfl] at known
        have same := Option.some.inj known
        exact ⟨.inr ⟨same, rfl⟩, atNew.trans (own type same).symm⟩
      next =>
        rw [if_neg (old path id found)] at known
        rcases (shaped.types path id type).mp ⟨found, known⟩ with ⟨before, samePath⟩
        exact ⟨.inl before, samePath⟩
    · rintro ⟨before | ⟨same, rfl⟩, rfl⟩
      · rw [if_neg (free type id before)]
        have present := shaped.walk?_segments before
        exact ⟨present.1, by rw [if_neg (old _ _ present.1)]; exact present.2⟩
      · rw [if_pos (own type same), if_pos rfl, same]
        exact ⟨rfl, rfl⟩

end Graft

theorem congr (shaped : Shaped system placed root heap) {other : TypeRef → TableId → Prop}
    (same : ∀ type id, other type id ↔ placed type id) : Shaped system other root heap where
  distinct := shaped.distinct
  kinds := shaped.kinds
  once := shaped.once
  types path id type := by rw [same]; exact shaped.types path id type

theorem walk?_child {way : List String} {parent : TableId} (reached : heap.walk? root way = some parent)
    (name : String) : heap.walk? root (way ++ [name]) = heap.child? parent name := by
  rw [TableHeap.walk?_concat, reached, Option.bind_some]

/-- A table may be entered under a name that nothing has. -/
theorem graft_vacant (shaped : Shaped system placed root heap) {way : List String} {parent : TableId} {name : String}
    (kind : TableKind) (reached : heap.walk? root way = some parent)
    (vacant : heap.get parent (.string name) = .nil) (notPlain : kind ≠ .plain)
    (own : ∀ type, kind = .type type → system.segments type = way ++ [name]) :
    Shaped system (fun type id => placed type id ∨ kind = .type type ∧ id = (heap.graft parent name kind []).1)
        root (heap.graft parent name kind []).2 ∧
      (heap.graft parent name kind []).2.walk? root (way ++ [name]) = some (heap.graft parent name kind []).1 := by
  have nothing : heap.walk? root (way ++ [name]) = none := by rw [walk?_child reached, TableHeap.child?, vacant]
  refine ⟨shaped.graft reached (TableHeap.takesOver_nil nothing) (fun type id known same => ?_) notPlain own, ?_⟩
  · rw [← same, (shaped.walk?_segments known).1] at nothing
    cases nothing
  · rw [shaped.walk?_graft reached (TableHeap.takesOver_nil nothing), if_pos rfl]

/-- A node may be entered under a name that nothing has. -/
theorem graft_space (shaped : Shaped system placed root heap) {way : List String} {parent : TableId} {name : String}
    (path : String) (reached : heap.walk? root way = some parent) (vacant : heap.get parent (.string name) = .nil) :
    Shaped system placed root (heap.graft parent name (.space path) []).2 ∧
      (heap.graft parent name (.space path) []).2.walk? root (way ++ [name]) =
        some (heap.graft parent name (.space path) []).1 := by
  rcases shaped.graft_vacant (.space path) reached vacant nofun nofun with ⟨made, found⟩
  exact ⟨made.congr fun _ _ => (or_iff_left nofun).symm, found⟩

/-- A table with the entries of a node may be entered in the place of the node. -/
theorem graft_node (shaped : Shaped system placed root heap) {way : List String} {parent node : TableId} {name path : String}
    (kind : TableKind) (reached : heap.walk? root way = some parent)
    (entered : heap.get parent (.string name) = .table node) (space : heap.kind? node = some (.space path))
    (notPlain : kind ≠ .plain) (own : ∀ type, kind = .type type → system.segments type = way ++ [name]) :
    Shaped system
      (fun type id => placed type id ∨ kind = .type type ∧ id = (heap.graft parent name kind (heap.entriesOf node)).1)
      root (heap.graft parent name kind (heap.entriesOf node)).2 := by
  have found : heap.walk? root (way ++ [name]) = some node := by
    rw [walk?_child reached, TableHeap.child?_eq_some.mpr entered]
  refine shaped.graft reached (shaped.takesOver_entriesOf found) (fun type id known same => ?_) notPlain own
  have present := shaped.walk?_segments known
  rw [same, found] at present
  rcases Option.some.inj present.1 with rfl
  rw [space] at present
  cases present.2

/-- The tables on the way to a type are made in the shape. -/
theorem descend (shaped : Shaped system placed root heap) {typeName path : String} {segments way : List String}
    {current : TableId} (reached : heap.walk? root way = some current) {result : TableId × TableHeap}
    (descended : NamespaceTree.descend typeName segments path current heap = .ok result) :
    Shaped system placed root result.2 ∧ result.2.walk? root (way ++ segments) = some result.1 := by
  induction segments generalizing way path current heap with
  | nil =>
      rcases Except.ok.inj descended with rfl
      exact ⟨shaped, by rw [List.append_nil]; exact reached⟩
  | cons segment rest ih =>
      rw [NamespaceTree.descend] at descended
      rw [List.append_cons]
      split at descended
      next next entry =>
        exact ih shaped ((walk?_child reached segment).trans (TableHeap.child?_eq_some.mpr entry)) descended
      next vacant =>
        rcases shaped.graft_space (NamespaceTree.extendPath path segment) reached vacant with ⟨made, found⟩
        exact ih made found descended
      next => cases descended

/-- The table of a type is found or made in the shape. -/
theorem placeLeaf (shaped : Shaped system placed root heap) {type : TypeRef} {way : List String} {name : String}
    {parent : TableId} (own : system.segments type = way ++ [name]) (reached : heap.walk? root way = some parent)
    {result : TableId × TableHeap} (made : NamespaceTree.placeLeaf system type name parent heap = .ok result) :
    Shaped system (fun other id => placed other id ∨ other = type ∧ id = result.1) root result.2 := by
  have ownKind : ∀ other, TableKind.type type = .type other → system.segments other = way ++ [name] := by
    rintro other ⟨⟩
    exact own
  have typed : ∀ (other : TypeRef) (id : TableId), (placed other id ∨ other = type ∧ id = result.1) ↔
      (placed other id ∨ TableKind.type type = .type other ∧ id = result.1) := by
    intro other id
    rw [TableKind.type.injEq, eq_comm]
  rcases NamespaceTree.placeLeaf_eq_ok made with
    ⟨existing, entry, kind, rfl⟩ | ⟨existing, path, entry, space, rfl⟩ | ⟨vacant, rfl⟩
  · have found := (walk?_child reached name).trans (TableHeap.child?_eq_some.mpr entry)
    have known := ((shaped.types _ existing type).mp ⟨found, kind⟩).1
    exact shaped.congr fun _ _ => ⟨fun either => either.elim id (fun ⟨same, at_⟩ => same ▸ at_ ▸ known), .inl⟩
  · exact (shaped.graft_node (.type type) reached entry space nofun ownKind).congr typed
  · exact (shaped.graft_vacant (.type type) reached vacant nofun ownKind).1.congr typed

theorem walk?_created {path : List String} {id : TableId}
    (found : (NamespaceTree.create .empty).2.walk? (NamespaceTree.create .empty).1.root path = some id) :
    path = [] ∧ id = (NamespaceTree.create .empty).1.root := by
  cases path with
  | nil => exact ⟨rfl, (Option.some.inj found).symm⟩
  | cons name rest =>
      have nothing :
          (NamespaceTree.create .empty).2.child? (NamespaceTree.create .empty).1.root name = none := rfl
      rw [TableHeap.walk?, List.foldlM_cons, nothing] at found
      cases found

/-- A new tree is its root. -/
theorem created (system : TypeSystem) :
    Shaped system (fun _ _ => False) (NamespaceTree.create .empty).1.root (NamespaceTree.create .empty).2 where
  distinct := TableHeap.Distinct.create (fun _ _ impossible => by cases impossible) _
  kinds path id found := by
    rcases walk?_created found with ⟨rfl, rfl⟩
    exact ⟨.space "", rfl, nofun⟩
  once path other id found again := by rw [(walk?_created found).1, (walk?_created again).1]
  types path id type := by
    refine ⟨fun ⟨found, kind⟩ => ?_, fun impossible => impossible.1.elim⟩
    rw [(walk?_created found).2] at kind
    cases kind

end Shaped

namespace NamespaceTree

variable {system : TypeSystem} {placed : TypeRef → TableId → Prop} {tree : NamespaceTree} {heap : TableHeap}
  {type : TypeRef}

/-- The tree has the shape, and names tables of types that were placed there. -/
structure Charted (system : TypeSystem) (placed : TypeRef → TableId → Prop) (tree : NamespaceTree) (heap : TableHeap) :
    Prop where
  shaped : Shaped system placed tree.root heap
  known : ∀ type id, tree.table? type = some id → placed type id

theorem segments_eq (system : TypeSystem) (type : TypeRef) :
    system.segments type = (system.segments type).dropLast ++ [(system.segments type).getLastD ""] := by
  simp [TypeSystem.segments]

/-- A type that was placed at a table may be placed there again. -/
theorem placed_again {id : TableId} (known : placed type id) (other : TypeRef) (otherId : TableId) :
    (placed other otherId ∨ other = type ∧ otherId = id) ↔ placed other otherId :=
  ⟨fun either => either.elim (fun earlier => earlier) fun ⟨same, sameTable⟩ => same ▸ sameTable ▸ known, .inl⟩

theorem Charted.place (charted : Charted system placed tree heap) {table : TableId} {later : NamespaceTree}
    {grown : TableHeap} (made : tree.place system heap type = .ok (table, later, grown)) :
    Charted system (fun other id => placed other id ∨ other = type ∧ id = table) later grown := by
  rcases place_eq_ok made with ⟨present, rfl, rfl⟩ | ⟨-, rfl, parent, descended, leaf⟩
  · exact ⟨charted.shaped.congr (placed_again (charted.known type table present)),
      fun other id found => .inl (charted.known other id found)⟩
  · rcases charted.shaped.descend (heap.walk?_root tree.root) descended with ⟨shaped, reached⟩
    refine ⟨shaped.placeLeaf (segments_eq system type) reached leaf, fun other id found => ?_⟩
    exact (FinMap.eq_or_get?_of_insert found).symm.imp_left (charted.known other id)

end NamespaceTree

end ScriptBridge
