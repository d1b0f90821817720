import ScriptBridge.Proofs.Namespaces.Paths
import ScriptBridge.Proofs.Namespaces.Shape
import ScriptBridge.Proofs.Steps.Installing

/-!
# Orderly tables

Below the root of the namespaces, nodes have the names of their paths, every path
leads towards a type or is that of a namespace, and only tables of types have
entries that are data, under names that binding their types enters. Where no such
name is on the way to another type or to a namespace, what binding writes keeps the
tables orderly, and every path goes on leading to where it led.
-/

namespace ScriptBridge

namespace Host

/-- A path starts at the root and is on the way to one of some types, or is that of a registered namespace. -/
inductive Leads (host : Host) (goals : TypeRef → Prop) : List String → Prop
  | root : Leads host goals []
  | towards {type : TypeRef} {path : List String} (goal : goals type)
      (onPath : path <+: host.system.segments type) : Leads host goals path
  | space {path : List String}
      (registered : host.registry.hasNamespace host.system (NamespaceTree.dotted path) = true) :
      Leads host goals path

theorem Leads.mono {host : Host} {goals more : TypeRef → Prop} {path : List String} (leads : host.Leads goals path)
    (included : ∀ type, goals type → more type) : host.Leads more path := by
  cases leads with
  | root => exact .root
  | towards goal onPath => exact .towards (included _ goal) onPath
  | space registered => exact .space registered

/-- No name that binding a type enters into its table is on the way to another type or to a namespace. -/
def NamesApart (host : Host) : Prop :=
  ∀ type name, host.Enters type name → ¬host.Leads (fun _ => True) (host.system.segments type ++ [name])

end Host

/--
The tables below a root have the shape of the types that were placed. They are on
the way to given types, and nothing else is entered among them.
-/
structure Orderly (host : Host) (goals : TypeRef → Prop) (placed : TypeRef → TableId → Prop) (root : TableId)
    (heap : TableHeap) : Prop extends Shaped host.system placed root heap where
  texts : ∀ path id text, heap.walk? root path = some id → heap.kind? id = some (.space text) →
    text = NamespaceTree.dotted path
  leads : ∀ path id, heap.walk? root path = some id → host.Leads goals path
  data : ∀ path id name, heap.walk? root path = some id → (heap.get id (.string name)).isData = true →
    ∃ type, heap.kind? id = some (.type type) ∧ host.Enters type name

namespace Shaped

variable {system : TypeSystem} {placed : TypeRef → TableId → Prop} {root : TableId} {heap after : TableHeap}

/-- If the tables of the tree lead to the same tables by the same names, all paths lead to where they led. -/
theorem walk?_eq_of_child?_eq
    (same : ∀ path id, heap.walk? root path = some id → ∀ name, after.child? id name = heap.child? id name)
    (path : List String) : after.walk? root path = heap.walk? root path := by
  induction path using List.reverseRecOn with
  | nil => rfl
  | append_singleton path name ih =>
      rw [TableHeap.walk?_concat, TableHeap.walk?_concat heap, ih]
      cases found : heap.walk? root path with
      | none => rfl
      | some id => exact same path id found name

end Shaped

namespace Orderly

variable {host : Host} {goals : TypeRef → Prop} {placed : TypeRef → TableId → Prop} {root : TableId}
  {heap after : TableHeap} {type : TypeRef}

/-- A change that is none to the tables of the tree, but that names of their types may be entered as data. -/
theorem of_same (orderly : Orderly host goals placed root heap) (distinct : after.Distinct)
    (children : ∀ path id, heap.walk? root path = some id → ∀ name, after.child? id name = heap.child? id name)
    (kinds : ∀ path id, heap.walk? root path = some id → after.kind? id = heap.kind? id)
    (entered : ∀ path id name, heap.walk? root path = some id → (after.get id (.string name)).isData = true →
      (heap.get id (.string name)).isData = true ∨
        ∃ type, heap.kind? id = some (.type type) ∧ host.Enters type name) :
    Orderly host goals placed root after := by
  have walks := Shaped.walk?_eq_of_child?_eq children
  refine ⟨⟨distinct, fun path id found => ?_, fun path other id found again => ?_, fun path id type => ?_⟩,
    fun path id text found space => ?_, fun path id found => ?_, fun path id name found isData => ?_⟩
  · rw [walks] at found
    rw [kinds path id found]
    exact orderly.kinds path id found
  · rw [walks] at found again
    exact orderly.once path other id found again
  · rw [walks, ← orderly.types]
    refine and_congr_right fun found => ?_
    rw [kinds path id found]
  · rw [walks] at found
    rw [kinds path id found] at space
    exact orderly.texts path id text found space
  · rw [walks] at found
    exact orderly.leads path id found
  · rw [walks] at found
    rw [kinds path id found]
    exact (entered path id name found isData).elim (orderly.data path id name found) fun known => known

/-- Nothing that binding a type enters into its table is in the way of a table. -/
theorem child?_eq_none (orderly : Orderly host goals placed root heap) (apart : host.NamesApart) {table : TableId}
    {name : String} (known : placed type table) (enters : host.Enters type name) :
    heap.child? table name = none := by
  cases found : heap.child? table name with
  | none => rfl
  | some next =>
      have reached := (Shaped.walk?_child (orderly.walk?_segments known).1 name).trans found
      exact absurd ((orderly.leads _ next reached).mono fun _ _ => trivial) (apart type name enters)

/-- Data that is entered where no table is leads every name of every table to where it led. -/
theorem child?_enterVacant (orderly : Orderly host goals placed root heap) {table : TableId} {name : String}
    {value : ScriptValue} (known : placed type table) (vacant : heap.child? table name = none)
    (noTable : value.asTable? = none) (id : TableId) (other : String) :
    (heap.set table (.string name) value).child? id other = heap.child? id other := by
  have entry := TableHeap.get_set heap (TableHeap.isSome_table? (orderly.walk?_segments known).2)
  by_cases same : id = table ∧ other = name
  · rcases same with ⟨rfl, rfl⟩
    rw [vacant, TableHeap.child?, entry, if_pos ⟨rfl, rfl⟩]
    cases value <;> simp_all [ScriptValue.asTable?]
  · rw [TableHeap.child?, entry, if_neg fun both => same ⟨both.1, ScriptKey.string.inj both.2⟩]
    rfl

/-- What binding a type enters into its table keeps the tables orderly where no table is in the way. -/
theorem enterVacant (orderly : Orderly host goals placed root heap) {table : TableId} {name : String}
    {value : ScriptValue} (known : placed type table) (enters : host.Enters type name)
    (vacant : heap.child? table name = none) (noTable : value.asTable? = none) :
    Orderly host goals placed root (heap.set table (.string name) value) := by
  have stands := orderly.walk?_segments known
  have entry := TableHeap.get_set heap (TableHeap.isSome_table? stands.2)
  refine orderly.of_same (orderly.distinct.set _ _ _) (fun _ id _ => orderly.child?_enterVacant known vacant noTable id)
    (fun path id _ => TableHeap.kind?_set heap table id _ value) fun path id other found isData => ?_
  rw [entry] at isData
  split at isData
  next same =>
    rcases same with ⟨rfl, same⟩
    rcases ScriptKey.string.inj same with rfl
    exact .inr ⟨type, stands.2, enters⟩
  next => exact .inl isData

/-- What binding a type enters into its table keeps the tables orderly. -/
theorem enterData (orderly : Orderly host goals placed root heap) (apart : host.NamesApart) {table : TableId}
    {name : String} {value : ScriptValue} (known : placed type table) (enters : host.Enters type name)
    (noTable : value.asTable? = none) : Orderly host goals placed root (heap.set table (.string name) value) :=
  orderly.enterVacant known enters (orderly.child?_eq_none apart known enters) noTable

/-- What is written into a table outside of the tree keeps the tables orderly. -/
theorem writeElsewhere (orderly : Orderly host goals placed root heap) {table : TableId}
    (outside : ∀ path, heap.walk? root path ≠ some table) (key : ScriptKey) (value : ScriptValue) :
    Orderly host goals placed root (heap.set table key value) := by
  have entry : ∀ path id, heap.walk? root path = some id → ∀ other,
      (heap.set table key value).get id other = heap.get id other := by
    intro path id found other
    refine TableHeap.get_set_of_ne heap ?_ key other value
    rintro rfl
    exact outside path found
  refine orderly.of_same (orderly.distinct.set _ _ _) (fun path id found name => ?_)
    (fun path id _ => TableHeap.kind?_set heap table id key value) fun path id name found isData => .inl ?_
  · rw [TableHeap.child?, entry path id found]
    rfl
  · rwa [entry path id found] at isData

/-- A table that does not stand for anything is outside of the tree. -/
theorem outside_of_plain (orderly : Orderly host goals placed root heap) {table : TableId}
    (plain : ∀ kind, heap.kind? table = some kind → kind = .plain) (path : List String) :
    heap.walk? root path ≠ some table := by
  intro found
  rcases orderly.kinds path table found with ⟨kind, known, notPlain⟩
  exact notPlain (plain kind known)

/-- A new table is outside of the tree as long as it is entered nowhere. -/
theorem create (orderly : Orderly host goals placed root heap) (kind : TableKind) :
    Orderly host goals placed root (heap.create kind).2 := by
  refine orderly.of_same (orderly.distinct.create _) (fun path id _ name => ?_) (fun path id found => ?_)
    fun path id name _ isData => .inl ?_
  · rw [TableHeap.child?, TableHeap.get_create]
    rfl
  · rcases orderly.kinds path id found with ⟨kind, known, -⟩
    rw [TableHeap.kind?_create, if_neg]
    rintro rfl
    simp [TableHeap.create, TableHeap.kind?, TableHeap.table?] at known
  · rwa [TableHeap.get_create] at isData

theorem walk?_create (heap : TableHeap) (root : TableId) (kind : TableKind) (path : List String) :
    (heap.create kind).2.walk? root path = heap.walk? root path := by
  refine Shaped.walk?_eq_of_child?_eq (fun path id _ name => ?_) path
  rw [TableHeap.child?, TableHeap.get_create]
  rfl

theorem notData_of_space (orderly : Orderly host goals placed root heap) {path : List String} {id : TableId} {text : String}
    (found : heap.walk? root path = some id) (space : heap.kind? id = some (.space text)) (name : String) :
    (heap.get id (.string name)).isData = false := by
  refine Bool.eq_false_iff.mpr fun isData => ?_
  rcases orderly.data path id name found isData with ⟨type, known, -⟩
  rw [space] at known
  cases known

section Graft

variable {way : List String} {parent : TableId} {name : String} {kind : TableKind}
  {entries : List (ScriptKey × ScriptValue)}

/-- A new table of the tree keeps it orderly, if it is named for its path and takes over no data. -/
theorem graft (orderly : Orderly host goals placed root heap) (reached : heap.walk? root way = some parent)
    (taken : heap.TakesOver root (way ++ [name]) entries) {more : TypeRef → TableId → Prop}
    (shaped : Shaped host.system more root (heap.graft parent name kind entries).2)
    (text : ∀ path, kind = .space path → path = NamespaceTree.dotted (way ++ [name]))
    (leads : host.Leads goals (way ++ [name]))
    (bare : ∀ node key, heap.walk? root (way ++ [name]) = some node → (heap.get node (.string key)).isData = false) :
    Orderly host goals more root (heap.graft parent name kind entries).2 := by
  rcases orderly.kinds way parent reached with ⟨parentKind, known, -⟩
  have walked : ∀ path, (heap.graft parent name kind entries).2.walk? root path = _ :=
    orderly.walk?_graft reached taken
  have kinds := TableHeap.kind?_graft heap parent name kind entries
  have entry := @TableHeap.get_graft heap parent name kind entries parentKind known taken.distinct
  have old : ∀ path id, heap.walk? root path = some id → id ≠ (heap.graft parent name kind entries).1 :=
    fun path id found => orderly.ne_graft found
  generalize heap.graft parent name kind entries = made at *
  refine ⟨shaped, fun path id other found space => ?_, fun path id found => ?_, fun path id key found isData => ?_⟩
  · rw [walked] at found
    rw [kinds] at space
    split at found
    next atNew =>
      rcases Option.some.inj found with rfl
      rw [if_pos rfl] at space
      rw [atNew]
      exact text other (Option.some.inj space)
    next =>
      rw [if_neg (old path id found)] at space
      exact orderly.texts path id other found space
  · rw [walked] at found
    split at found
    next atNew => rwa [atNew]
    next => exact orderly.leads path id found
  · rw [walked] at found
    rw [entry] at isData
    rw [kinds]
    split at isData
    next => cases isData
    next =>
      split at found
      next atNew =>
        rcases Option.some.inj found with rfl
        rw [if_pos rfl, taken.values] at isData
        cases node : heap.walk? root (way ++ [name]) with
        | none => rw [node] at isData; cases isData
        | some id =>
            rw [node, Option.map_some, Option.getD_some, bare id key node] at isData
            cases isData
      next =>
        rw [if_neg (old path id found)] at isData ⊢
        exact orderly.data path id key found isData

end Graft

/-- A node may be entered under a name that nothing has, on a path that leads somewhere. -/
theorem enterSpace (orderly : Orderly host goals placed root heap) {way : List String} {parent : TableId} {name : String}
    (reached : heap.walk? root way = some parent) (vacant : heap.get parent (.string name) = .nil)
    (leads : host.Leads goals (way ++ [name])) :
    Orderly host goals placed root
        (heap.graft parent name (.space (NamespaceTree.extendPath (NamespaceTree.dotted way) name)) []).2 ∧
      (heap.graft parent name (.space (NamespaceTree.extendPath (NamespaceTree.dotted way) name)) []).2.walk? root
          (way ++ [name]) =
        some (heap.graft parent name (.space (NamespaceTree.extendPath (NamespaceTree.dotted way) name)) []).1 := by
  have nothing : heap.walk? root (way ++ [name]) = none := by
    rw [Shaped.walk?_child reached, TableHeap.child?, vacant]
  rcases orderly.graft_space (NamespaceTree.extendPath (NamespaceTree.dotted way) name) reached vacant with
    ⟨shaped, found⟩
  refine ⟨orderly.graft reached (TableHeap.takesOver_nil nothing) shaped (fun path same => ?_) leads
    (fun node key present => ?_), found⟩
  · rw [NamespaceTree.dotted_concat]
    exact (TableKind.space.inj same).symm
  · rw [nothing] at present
    cases present

/-- A namespace is entered under a name that nothing has, in the tree or outside of it. -/
theorem importSpace (orderly : Orderly host goals placed root heap) {table : TableId} {text name : String}
    (space : heap.kind? table = some (.space text)) (vacant : heap.get table (.string name) = .nil)
    (known : host.registry.hasNamespace host.system (NamespaceTree.extendPath text name) = true) :
    Orderly host goals placed root (heap.graft table name (.space (NamespaceTree.extendPath text name)) []).2 := by
  by_cases inTree : ∃ path, heap.walk? root path = some table
  · rcases inTree with ⟨way, reached⟩
    rcases orderly.texts way table text reached space with rfl
    exact (orderly.enterSpace reached vacant (.space (by rwa [NamespaceTree.dotted_concat]))).1
  · refine (orderly.create _).writeElsewhere (fun path found => inTree ⟨path, ?_⟩) _ _
    rwa [walk?_create] at found

/-- The tables on the way to a type are made in order. -/
theorem descend (orderly : Orderly host goals placed root heap) {typeName : String} {segments way : List String}
    {current : TableId} (reached : heap.walk? root way = some current) (goal : goals type)
    (towards : way ++ segments <+: host.system.segments type) {result : TableId × TableHeap}
    (descended : NamespaceTree.descend typeName segments (NamespaceTree.dotted way) current heap = .ok result) :
    Orderly host goals placed root result.2 ∧ result.2.walk? root (way ++ segments) = some result.1 := by
  induction segments generalizing way current heap with
  | nil =>
      rcases Except.ok.inj descended with rfl
      exact ⟨orderly, by rw [List.append_nil]; exact reached⟩
  | cons segment rest ih =>
      rw [NamespaceTree.descend] at descended
      rw [List.append_cons] at towards ⊢
      split at descended
      next next entry =>
        refine ih orderly ((Shaped.walk?_child reached segment).trans (TableHeap.child?_eq_some.mpr entry)) towards ?_
        rwa [NamespaceTree.dotted_concat]
      next vacant =>
        have leads : host.Leads goals (way ++ [segment]) :=
          .towards goal ((List.prefix_append _ rest).trans towards)
        rcases orderly.enterSpace reached vacant leads with ⟨made, found⟩
        refine ih made found towards ?_
        rwa [NamespaceTree.dotted_concat]
      next => cases descended

/-- The table of a type is found or made in order. -/
theorem placeLeaf (orderly : Orderly host goals placed root heap) {way : List String} {name : String} {parent : TableId}
    (goal : goals type) (own : host.system.segments type = way ++ [name]) (reached : heap.walk? root way = some parent)
    {result : TableId × TableHeap} (made : NamespaceTree.placeLeaf host.system type name parent heap = .ok result) :
    Orderly host goals (fun other id => placed other id ∨ other = type ∧ id = result.1) root result.2 := by
  have shaped := orderly.toShaped.placeLeaf own reached made
  have leads : host.Leads goals (way ++ [name]) := .towards goal (own ▸ List.prefix_rfl)
  rcases NamespaceTree.placeLeaf_eq_ok made with
    ⟨existing, -, -, rfl⟩ | ⟨existing, path, entry, space, rfl⟩ | ⟨vacant, rfl⟩
  · exact { orderly with toShaped := shaped }
  · have found := (Shaped.walk?_child reached name).trans (TableHeap.child?_eq_some.mpr entry)
    refine orderly.graft reached (orderly.takesOver_entriesOf found) shaped nofun leads fun node key present => ?_
    rcases Option.some.inj (found.symm.trans present) with rfl
    exact orderly.notData_of_space found space key
  · have nothing : heap.walk? root (way ++ [name]) = none := by
      rw [Shaped.walk?_child reached, TableHeap.child?, vacant]
    refine orderly.graft reached (TableHeap.takesOver_nil nothing) shaped nofun leads fun node key present => ?_
    rw [nothing] at present
    cases present

theorem mono (orderly : Orderly host goals placed root heap) {more : TypeRef → Prop}
    (included : ∀ type, goals type → more type) : Orderly host more placed root heap :=
  { orderly with leads := fun path id found => (orderly.leads path id found).mono included }

theorem created (host : Host) :
    Orderly host (fun _ => False) (fun _ _ => False) (NamespaceTree.create .empty).1.root
      (NamespaceTree.create .empty).2 where
  toShaped := Shaped.created host.system
  texts path id text found space := by
    rcases Shaped.walk?_created found with ⟨rfl, rfl⟩
    exact (TableKind.space.inj (Option.some.inj space)).symm
  leads path id found := by
    rw [(Shaped.walk?_created found).1]
    exact .root
  data path id name found isData := by
    rw [(Shaped.walk?_created found).2] at isData
    cases isData

/-- Placing a type keeps the tables orderly; then they are on the way to this type too. -/
theorem place {tree : NamespaceTree} (orderly : Orderly host goals placed tree.root heap)
    (known : ∀ other id, tree.table? other = some id → placed other id) {table : TableId} {later : NamespaceTree}
    {grown : TableHeap} (made : tree.place host.system heap type = .ok (table, later, grown)) :
    Orderly host (fun other => goals other ∨ other = type) (fun other id => placed other id ∨ other = type ∧ id = table)
      later.root grown := by
  have charted : NamespaceTree.Charted host.system placed tree heap := ⟨orderly.toShaped, known⟩
  have shaped := (charted.place made).shaped
  have widened : Orderly host (fun other => goals other ∨ other = type) placed tree.root heap :=
    orderly.mono fun _ => .inl
  rcases NamespaceTree.place_eq_ok made with ⟨-, rfl, rfl⟩ | ⟨-, rfl, parent, descended, leaf⟩
  · exact { widened with toShaped := shaped }
  · rcases widened.descend (heap.walk?_root tree.root) (.inr rfl) (List.dropLast_prefix _) descended with
      ⟨way, reached⟩
    exact way.placeLeaf (.inr rfl) (NamespaceTree.segments_eq host.system type) reached leaf

/-- The table of a type that is placed for the first time has no data. -/
theorem blank_place {tree : NamespaceTree}
    (orderly : Orderly host goals (fun other id => tree.table? other = some id) tree.root heap)
    (absent : tree.table? type = none) {table : TableId} {later : NamespaceTree} {grown : TableHeap}
    (made : tree.place host.system heap type = .ok (table, later, grown)) (key : String) :
    (grown.get table (.string key)).isData = false := by
  rcases NamespaceTree.place_eq_ok made with ⟨present, -, -⟩ | ⟨-, -, parent, descended, leaf⟩
  · rw [absent] at present
    cases present
  · have widened : Orderly host (fun other => goals other ∨ other = type) _ tree.root heap := orderly.mono fun _ => .inl
    rcases widened.descend (heap.walk?_root tree.root) (.inr rfl) (List.dropLast_prefix _) descended with
      ⟨way, reached⟩
    rcases way.kinds _ _ reached with ⟨parentKind, known, -⟩
    rcases NamespaceTree.placeLeaf_eq_ok leaf with
      ⟨existing, entry, kind, -⟩ | ⟨existing, path, entry, space, same⟩ | ⟨vacant, same⟩
    · have found := (Shaped.walk?_child reached _).trans (TableHeap.child?_eq_some.mpr entry)
      have present := ((way.types _ existing type).mp ⟨found, kind⟩).1
      rw [absent] at present
      cases present
    · have found := (Shaped.walk?_child reached _).trans (TableHeap.child?_eq_some.mpr entry)
      have taken := way.takesOver_entriesOf found
      change ((table, grown).2.get (table, grown).1 (.string key)).isData = false
      rw [same]
      refine TableHeap.blank_graft known taken.distinct ?_
      rw [taken.values, found]
      exact way.notData_of_space found space key
    · change ((table, grown).2.get (table, grown).1 (.string key)).isData = false
      rw [same]
      exact @TableHeap.blank_graft parent.2 parent.1 _ _ [] parentKind known List.nodup_nil _ rfl

end Orderly

/-!
## Which paths lead somewhere

When a type has been placed, the paths that lead somewhere are those that did before and
those on the way to the type. When a type has entered data into its table, they are the
same as before.
-/

namespace Shaped

variable {system : TypeSystem} {placed : TypeRef → TableId → Prop} {root : TableId} {heap : TableHeap}

/-- Every path on the way to a table leads somewhere. -/
theorem isSome_walk?_onWay {way path : List String} {id : TableId} (reached : heap.walk? root way = some id)
    (onWay : path <+: way) : (heap.walk? root path).isSome = true := by
  rcases onWay with ⟨rest, rfl⟩
  rw [TableHeap.walk?_append] at reached
  rcases Option.bind_eq_some_iff.mp reached with ⟨_, found, -⟩
  exact Option.isSome_of_mem found

theorem isSome_walk?_graft (shaped : Shaped system placed root heap) {way : List String} {parent : TableId}
    {name : String}
    {kind : TableKind} {entries : List (ScriptKey × ScriptValue)} (reached : heap.walk? root way = some parent)
    (taken : heap.TakesOver root (way ++ [name]) entries) (path : List String) :
    ((heap.graft parent name kind entries).2.walk? root path).isSome = true ↔
      (heap.walk? root path).isSome = true ∨ path = way ++ [name] := by
  rw [shaped.walk?_graft reached taken]
  split
  next atNew => simp [atNew]
  next elsewhere => simp [elsewhere]

/-- The tables on the way to a type are found or made, and no others. -/
theorem isSome_walk?_descend (shaped : Shaped system placed root heap) {typeName path : String}
    {segments way : List String}
    {current : TableId} (reached : heap.walk? root way = some current) {result : TableId × TableHeap}
    (descended : NamespaceTree.descend typeName segments path current heap = .ok result) (other : List String) :
    (result.2.walk? root other).isSome = true ↔ (heap.walk? root other).isSome = true ∨ other <+: way ++ segments := by
  induction segments generalizing way path current heap with
  | nil =>
      rcases Except.ok.inj descended with rfl
      rw [List.append_nil]
      exact (or_iff_left_of_imp (isSome_walk?_onWay reached)).symm
  | cons segment rest ih =>
      rw [NamespaceTree.descend] at descended
      rw [List.append_cons]
      split at descended
      next next entry =>
        exact ih shaped ((walk?_child reached segment).trans (TableHeap.child?_eq_some.mpr entry)) descended
      next vacant =>
        have nothing : heap.walk? root (way ++ [segment]) = none := by
          rw [walk?_child reached, TableHeap.child?, vacant]
        rcases shaped.graft_space (NamespaceTree.extendPath path segment) reached vacant with ⟨made, found⟩
        have grown := @isSome_walk?_graft system placed root heap shaped way current segment
          (.space (NamespaceTree.extendPath path segment)) [] reached (TableHeap.takesOver_nil nothing) other
        rw [ih made found descended, grown, or_assoc]
        refine or_congr_right (or_iff_right_of_imp ?_)
        rintro rfl
        exact List.prefix_append _ _
      next => cases descended

theorem isSome_walk?_placeLeaf (shaped : Shaped system placed root heap) {type : TypeRef} {way : List String}
    {name : String} {parent : TableId} (reached : heap.walk? root way = some parent) {result : TableId × TableHeap}
    (made : NamespaceTree.placeLeaf system type name parent heap = .ok result) (path : List String) :
    (result.2.walk? root path).isSome = true ↔ (heap.walk? root path).isSome = true ∨ path = way ++ [name] := by
  rcases NamespaceTree.placeLeaf_eq_ok made with
    ⟨existing, entry, -, rfl⟩ | ⟨existing, text, entry, -, rfl⟩ | ⟨vacant, rfl⟩
  · have found := (walk?_child reached name).trans (TableHeap.child?_eq_some.mpr entry)
    refine (or_iff_left_of_imp ?_).symm
    rintro rfl
    exact Option.isSome_of_mem found
  · have found := (walk?_child reached name).trans (TableHeap.child?_eq_some.mpr entry)
    exact shaped.isSome_walk?_graft reached (shaped.takesOver_entriesOf found) path
  · have nothing : heap.walk? root (way ++ [name]) = none := by
      rw [walk?_child reached, TableHeap.child?, vacant]
    exact shaped.isSome_walk?_graft reached (TableHeap.takesOver_nil nothing) path

end Shaped

/-- When a type is placed, just the paths on the way to it lead somewhere from then on. -/
theorem NamespaceTree.Charted.isSome_walk?_place {system : TypeSystem} {placed : TypeRef → TableId → Prop}
    {tree : NamespaceTree} {heap : TableHeap} {type : TypeRef} (charted : Charted system placed tree heap)
    {table : TableId} {later : NamespaceTree} {grown : TableHeap}
    (made : tree.place system heap type = .ok (table, later, grown)) (path : List String) :
    (grown.walk? later.root path).isSome = true ↔
      (heap.walk? tree.root path).isSome = true ∨ path <+: system.segments type := by
  rcases place_eq_ok made with ⟨present, rfl, rfl⟩ | ⟨-, rfl, parent, descended, leaf⟩
  · have reached := (charted.shaped.walk?_segments (charted.known type table present)).1
    exact (or_iff_left_of_imp (Shaped.isSome_walk?_onWay reached)).symm
  · rcases charted.shaped.descend (heap.walk?_root tree.root) descended with ⟨shaped, reached⟩
    rw [shaped.isSome_walk?_placeLeaf reached leaf,
      charted.shaped.isSome_walk?_descend (heap.walk?_root tree.root) descended,
      or_assoc, List.nil_append, ← segments_eq]
    refine or_congr_right ⟨?_, fun onWay => ?_⟩
    · rintro (onWay | rfl)
      · exact onWay.trans (List.dropLast_prefix _)
      · exact List.prefix_rfl
    · rw [segments_eq system type] at onWay
      rcases List.prefix_concat_iff.mp onWay with whole | part
      · exact .inr (whole.trans (segments_eq system type).symm)
      · exact .inl part

/-- Data that is entered where no table is leads every path to where it led. -/
theorem Orderly.walk?_enterVacant {host : Host} {goals : TypeRef → Prop} {placed : TypeRef → TableId → Prop}
    {root : TableId} {heap : TableHeap} {type : TypeRef} (orderly : Orderly host goals placed root heap)
    {table : TableId} {name : String}
    {value : ScriptValue} (known : placed type table) (vacant : heap.child? table name = none)
    (noTable : value.asTable? = none) (path : List String) :
    (heap.set table (.string name) value).walk? root path = heap.walk? root path := by
  exact Shaped.walk?_eq_of_child?_eq (fun _ id _ => orderly.child?_enterVacant known vacant noTable id) path

end ScriptBridge
