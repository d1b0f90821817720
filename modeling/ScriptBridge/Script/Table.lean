import ScriptBridge.Script.Value

/-!
# Script tables

The tables of one context. A table stands for itself, for a node of the
namespace tree, or for a host type; this decides what a missing entry means. The
lemmas say what each table and each entry is after a creation or a write.
-/

namespace ScriptBridge

/-- What a table stands for. -/
inductive TableKind where
  | plain
  /-- A node of the namespace tree with its dotted path. -/
  | space (path : String)
  /-- The table of a host type. -/
  | type (type : TypeRef)
deriving DecidableEq

/-- A table: what it stands for, and its entries. -/
structure ScriptTable where
  kind : TableKind
  entries : FinMap ScriptKey ScriptValue

namespace ScriptTable

def ofKind (kind : TableKind) : ScriptTable := ⟨kind, .empty⟩

def get? (table : ScriptTable) (key : ScriptKey) : Option ScriptValue := table.entries.get? key

def set (table : ScriptTable) (key : ScriptKey) (value : ScriptValue) : ScriptTable :=
  if value.isNil then { table with entries := table.entries.erase key }
  else { table with entries := table.entries.insert key value }

theorem get?_set (table : ScriptTable) (key other : ScriptKey) (value : ScriptValue) :
    (table.set key value).get? other =
      if other = key then (if value.isNil then none else some value) else table.get? other := by
  cases isNil : value.isNil <;> grind [set, get?]

def sortedEntries (table : ScriptTable) : List (ScriptKey × ScriptValue) :=
  table.entries.entries.mergeSort fun left right => left.1.inOrder right.1

end ScriptTable

/-- The tables in order of creation. -/
structure TableHeap where
  tables : Array ScriptTable

namespace TableHeap

def empty : TableHeap := ⟨#[]⟩

instance : Inhabited TableHeap := ⟨empty⟩

def create (heap : TableHeap) (kind : TableKind) : TableId × TableHeap :=
  (⟨heap.tables.size⟩, ⟨heap.tables.push (.ofKind kind)⟩)

def table? (heap : TableHeap) (id : TableId) : Option ScriptTable := heap.tables[id.index]?

def kind? (heap : TableHeap) (id : TableId) : Option TableKind := (heap.table? id).map (·.kind)

def typeOf? (heap : TableHeap) (id : TableId) : Option TypeRef :=
  match heap.kind? id with
  | some (.type type) => some type
  | _ => none

/-- The entry of a key; an unknown table or a missing entry reads as nil. -/
def get (heap : TableHeap) (id : TableId) (key : ScriptKey) : ScriptValue :=
  ((heap.table? id).bind fun table => table.get? key).getD .nil

/-- Writes an entry; an unknown table leaves the heap as it is. -/
def set (heap : TableHeap) (id : TableId) (key : ScriptKey) (value : ScriptValue) : TableHeap :=
  match heap.table? id with
  | some table => ⟨heap.tables.setIfInBounds id.index (table.set key value)⟩
  | none => heap

theorem table?_create (heap : TableHeap) (kind : TableKind) (id : TableId) :
    (heap.create kind).2.table? id =
      if id = (heap.create kind).1 then some (.ofKind kind) else heap.table? id := by
  cases id
  simp only [create, table?, Array.getElem?_push, TableId.mk.injEq]

theorem table?_set (heap : TableHeap) (id other : TableId) (key : ScriptKey) (value : ScriptValue) :
    (heap.set id key value).table? other =
      if other = id then (heap.table? id).map fun table => table.set key value
      else heap.table? other := by
  cases id
  cases other
  simp only [set, table?, TableId.mk.injEq]
  grind

theorem get_set (heap : TableHeap) {id : TableId} (present : (heap.table? id).isSome)
    (other : TableId) (key otherKey : ScriptKey) (value : ScriptValue) :
    (heap.set id key value).get other otherKey =
      if other = id ∧ otherKey = key then value else heap.get other otherKey := by
  obtain ⟨table, found⟩ := Option.isSome_iff_exists.mp present
  by_cases same : other = id
  · subst same
    by_cases sameKey : otherKey = key
    · cases isNil : value.isNil <;>
        simp_all [get, table?_set, ScriptTable.get?_set, ScriptValue.isNil]
    · simp [get, table?_set, ScriptTable.get?_set, found, sameKey]
  · simp [get, table?_set, same]

def contains (heap : TableHeap) (id : TableId) : Bool := (heap.table? id).isSome

def size (heap : TableHeap) : Nat := heap.tables.size

end TableHeap

end ScriptBridge
