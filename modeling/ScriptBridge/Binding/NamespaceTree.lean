import ScriptBridge.Error
import ScriptBridge.Host.TypeSystem
import ScriptBridge.Script.Table
import ScriptBridge.Text.Dotted

/-!
# The namespace tree

The dotted names of host types as a tree of tables: the segments of the
namespace, the enclosing types, and the type itself. Tables that are missing on
the way are made; a namespace node at the place of a type becomes the type's
table and keeps its entries.
-/

namespace ScriptBridge

/-- The root table, and the table of each type that was placed. -/
structure NamespaceTree where
  root : TableId
  byType : FinMap TypeRef TableId

/-- The names on the way from the root to the table of a type. -/
def TypeSystem.segments (system : TypeSystem) (type : TypeRef) : List String :=
  let definition := system.definition type
  Text.segments definition.space ++ definition.enclosing ++ [definition.name]

namespace NamespaceTree

def create (heap : TableHeap) : NamespaceTree × TableHeap :=
  let (root, heap) := heap.create (.space "")
  (⟨root, .empty⟩, heap)

def table? (tree : NamespaceTree) (type : TypeRef) : Option TableId := tree.byType.get? type

/-- Forgets the table of a type; the tables on the way stay in place. -/
def forget (tree : NamespaceTree) (type : TypeRef) : NamespaceTree :=
  { tree with byType := tree.byType.erase type }

def extendPath (path segment : String) : String :=
  if path.isEmpty then segment else path ++ "." ++ segment

/-- The table at the end of a path, with the missing tables made. -/
def descend (typeName : String) :
    List String → String → TableId → TableHeap → Except BindError (TableId × TableHeap)
  | [], _, current, heap => .ok (current, heap)
  | segment :: rest, path, current, heap =>
      let path := extendPath path segment
      match heap.get current (.string segment) with
      | .table next => descend typeName rest path next heap
      | .nil =>
          let (next, heap) := heap.create (.space path)
          descend typeName rest path next (heap.set current (.string segment) (.table next))
      | _ => .error (.namespaceConflict path typeName)

/-- A new table for a type under a name of its parent, with some entries. -/
def placeNew (heap : TableHeap) (parent : TableId) (name : String) (type : TypeRef)
    (entries : List (ScriptKey × ScriptValue)) : TableId × TableHeap :=
  let (id, heap) := heap.create (.type type)
  let heap := entries.foldl (fun heap entry => heap.set id entry.1 entry.2) heap
  (id, heap.set parent (.string name) (.table id))

/-- The table of a type under a name of its parent. -/
def placeLeaf (system : TypeSystem) (type : TypeRef) (name : String) (parent : TableId)
    (heap : TableHeap) : Except BindError (TableId × TableHeap) :=
  let conflict : BindError := .namespaceConflict (system.fullName type) (system.fullName type)
  match heap.get parent (.string name) with
  | .table existing =>
      match heap.kind? existing with
      | some (.type other) => if other = type then .ok (existing, heap) else .error conflict
      | some (.space _) =>
          let entries := ((heap.table? existing).map (·.entries.entries)).getD []
          .ok (placeNew heap parent name type entries)
      | _ => .error conflict
  | .nil => .ok (placeNew heap parent name type [])
  | _ => .error conflict

/--
The table of a type, made together with the missing tables on the way to it. A
failure leaves everything as it is: tables are made only below the last table
that was there, where nothing can be in the way.
-/
def place (system : TypeSystem) (tree : NamespaceTree) (heap : TableHeap) (type : TypeRef) :
    Except BindError (TableId × NamespaceTree × TableHeap) :=
  match tree.table? type with
  | some id => .ok (id, tree, heap)
  | none => do
      let segments := system.segments type
      let (parent, heap) ← descend (system.fullName type) segments.dropLast "" tree.root heap
      let (id, heap) ← placeLeaf system type (segments.getLastD "") parent heap
      return (id, { tree with byType := tree.byType.insert type id }, heap)

/-- What a dotted path leads to from the root, without making anything. -/
def lookup (tree : NamespaceTree) (heap : TableHeap) (path : String) : ScriptValue :=
  (Text.segments path).foldl
    (fun current segment =>
      match current with
      | .table id => heap.get id (.string segment)
      | _ => .nil)
    (.table tree.root)

end NamespaceTree

end ScriptBridge
