import ScriptBridge.Proofs.Namespaces.Shape

/-!
# Runs of the namespace tree

What is asked of a namespace tree that nothing else writes to: that types are
placed, and that they are forgotten. The types come in any order, so a node on
the way to some types may later become the table of another.

Placing is given here once more with the tables as they stand when it stops, also
when it fails, and is the same as `NamespaceTree.place`: a failure is a conflict
with a type that was placed at the same path, so there was no table to make.
-/

namespace ScriptBridge

/-- A namespace tree and the tables it stands in. -/
structure Atlas where
  tree : NamespaceTree
  heap : TableHeap

/-- No table of the tree has an entry under a name that is neither missing nor a table. -/
def Bare (root : TableId) (heap : TableHeap) : Prop :=
  ∀ path id name, heap.walk? root path = some id → (heap.get id (.string name)).isData = false

section Bare

variable {system : TypeSystem} {placed : TypeRef → TableId → Prop} {root : TableId} {heap : TableHeap}
  {way : List String} {parent : TableId} {name : String}

theorem Bare.graft (bare : Bare root heap) (shaped : Shaped system placed root heap) {kind : TableKind}
    {entries : List (ScriptKey × ScriptValue)} (reached : heap.walk? root way = some parent)
    (taken : heap.TakesOver root (way ++ [name]) entries) :
    Bare root (heap.graft parent name kind entries).2 := by
  intro path id key found
  rcases shaped.kinds way parent reached with ⟨parentKind, known, -⟩
  rw [TableHeap.get_graft known taken.distinct, taken.values]
  rw [shaped.walk?_graft reached taken] at found
  split
  next => rfl
  next =>
    split
    next =>
      cases node : heap.walk? root (way ++ [name]) with
      | none => rfl
      | some old => exact bare _ old key node
    next old =>
      split at found
      next => exact absurd (Option.some.inj found).symm old
      next => exact bare path id key found

/-- The tables on the way to a type are found or made. -/
theorem Bare.descend (bare : Bare root heap) (shaped : Shaped system placed root heap) (typeName : String)
    {segments : List String} {path : String} {current : TableId} (reached : heap.walk? root way = some current) :
    ∃ result, NamespaceTree.descend typeName segments path current heap = .ok result ∧ Bare root result.2 := by
  induction segments generalizing way path current heap with
  | nil => exact ⟨_, rfl, bare⟩
  | cons segment rest ih =>
      have entry := bare way current segment reached
      rw [NamespaceTree.descend]
      split
      next next found =>
        exact ih bare shaped ((Shaped.walk?_child reached segment).trans (TableHeap.child?_eq_some.mpr found))
      next vacant =>
        have nothing : heap.walk? root (way ++ [segment]) = none := by
          rw [Shaped.walk?_child reached, TableHeap.child?, vacant]
        rcases shaped.graft_space (NamespaceTree.extendPath path segment) reached vacant with ⟨made, found⟩
        exact ih (bare.graft shaped reached (TableHeap.takesOver_nil nothing)) made found
      next noTable notNil =>
        cases value : heap.get current (.string segment) <;> simp_all [ScriptValue.isData]

/-- The table of a type is found or made, or the table of another type is at its path. -/
theorem Bare.placeLeaf (bare : Bare root heap) (shaped : Shaped system placed root heap) {type : TypeRef}
    (reached : heap.walk? root way = some parent) :
    (∃ result, NamespaceTree.placeLeaf system type name parent heap = .ok result ∧ Bare root result.2) ∨
      ∃ error other id, NamespaceTree.placeLeaf system type name parent heap = .error error ∧ other ≠ type ∧
        placed other id ∧ system.segments other = way ++ [name] := by
  have entry := bare way parent name reached
  rw [NamespaceTree.placeLeaf]
  cases value : heap.get parent (.string name) with
  | nil =>
      have nothing : heap.walk? root (way ++ [name]) = none := by
        rw [Shaped.walk?_child reached, TableHeap.child?, value]
      exact .inl ⟨_, rfl, bare.graft shaped reached (TableHeap.takesOver_nil nothing)⟩
  | table existing =>
      have found := (Shaped.walk?_child reached name).trans (TableHeap.child?_eq_some.mpr value)
      rcases shaped.kinds _ existing found with ⟨kind, known, notPlain⟩
      cases kind with
      | plain => exact absurd rfl notPlain
      | space path =>
          simp only [known]
          exact .inl ⟨_, rfl, bare.graft shaped reached (shaped.takesOver_entriesOf found)⟩
      | type other =>
          simp only [known]
          by_cases same : other = type
          · exact .inl ⟨_, if_pos same, bare⟩
          · rcases (shaped.types _ existing other).mp ⟨found, known⟩ with ⟨known, samePath⟩
            exact .inr ⟨_, other, existing, if_neg same, same, known, samePath.symm⟩
  | _ => simp_all [ScriptValue.isData]

end Bare

namespace NamespaceTree

variable {system : TypeSystem} {placed : TypeRef → TableId → Prop} {tree : NamespaceTree} {heap : TableHeap}
  {type : TypeRef}

/-- Tables on the way that are there are found, and nothing is made. -/
theorem descend_of_walk? (typeName : String) {segments : List String} (path : String) {current parent : TableId}
    (found : heap.walk? current segments = some parent) :
    descend typeName segments path current heap = .ok (parent, heap) := by
  induction segments generalizing path current with
  | nil =>
      rcases Option.some.inj found with rfl
      rfl
  | cons segment rest ih =>
      rcases Option.bind_eq_some_iff.mp found with ⟨next, child, deeper⟩
      rw [descend, TableHeap.child?_eq_some.mp child]
      exact ih _ deeper

theorem place_of_descend {parent : TableId × TableHeap} (absent : tree.table? type = none)
    (descended : descend (system.fullName type) (system.segments type).dropLast "" tree.root heap = .ok parent) :
    tree.place system heap type =
      (placeLeaf system type ((system.segments type).getLastD "") parent.1 parent.2).map fun result =>
        (result.1, { tree with byType := tree.byType.insert type result.1 }, result.2) := by
  simp only [place, absent, descended, bind, Except.bind]
  cases placeLeaf system type ((system.segments type).getLastD "") parent.1 parent.2 <;> rfl

theorem placeLeaf_of_placed {parent id : TableId} {name : String}
    (entered : heap.get parent (.string name) = .table id) (kind : heap.kind? id = some (.type type)) :
    placeLeaf system type name parent heap = .ok (id, heap) := by
  simp [placeLeaf, entered, kind]

/-- The table of the type is found or made, or that of another type was placed at its path. -/
theorem Charted.place_cases (charted : Charted system placed tree heap) (bare : Bare tree.root heap)
    (type : TypeRef) :
    (∃ id later grown, tree.place system heap type = .ok (id, later, grown) ∧ later.root = tree.root ∧
        Bare tree.root grown) ∨
      ∃ error other id, tree.place system heap type = .error error ∧ other ≠ type ∧ placed other id ∧
        system.segments other = system.segments type := by
  cases known : tree.table? type with
  | some id => exact .inl ⟨id, tree, heap, by rw [NamespaceTree.place, known], rfl, bare⟩
  | none =>
      have reached := heap.walk?_root tree.root
      rcases bare.descend charted.shaped (system.fullName type) reached with ⟨parent, descended, parentBare⟩
      rcases charted.shaped.descend reached descended with ⟨shaped, found⟩
      rw [place_of_descend known descended]
      rcases parentBare.placeLeaf shaped found with ⟨result, leaf, leafBare⟩ | ⟨error, other, id, leaf, conflict⟩
      · exact .inl ⟨result.1, { tree with byType := tree.byType.insert type result.1 }, result.2, by rw [leaf]; rfl, rfl,
          leafBare⟩
      · rw [List.nil_append, ← segments_eq] at conflict
        exact .inr ⟨error, other, id, by rw [leaf]; rfl, conflict⟩

/-- A type that was placed is found again, and no table is made. -/
theorem Charted.place_again (charted : Charted system placed tree heap) {id : TableId} (known : placed type id) :
    ∃ later, tree.place system heap type = .ok (id, later, heap) := by
  cases present : tree.table? type with
  | some found =>
      rw [← charted.shaped.placed_unique (charted.known type found present) known]
      exact ⟨tree, by rw [NamespaceTree.place, present]⟩
  | none =>
      have found := charted.shaped.walk?_segments known
      rw [segments_eq, TableHeap.walk?_concat] at found
      rcases Option.bind_eq_some_iff.mp found.1 with ⟨parent, reached, child⟩
      refine ⟨{ tree with byType := tree.byType.insert type id }, ?_⟩
      rw [place_of_descend present (descend_of_walk? _ "" reached),
        placeLeaf_of_placed (TableHeap.child?_eq_some.mp child) found.2]
      rfl

/--
`descend` with the tables as they stand when it stops: each missing table is made
and entered before the next name is looked at.
-/
def descendInPlace (typeName : String) :
    List String → String → TableId → TableHeap → Except BindError TableId × TableHeap
  | [], _, current, heap => (.ok current, heap)
  | segment :: rest, path, current, heap =>
      let path := extendPath path segment
      match heap.get current (.string segment) with
      | .table next => descendInPlace typeName rest path next heap
      | .nil =>
          let (next, heap) := heap.create (.space path)
          descendInPlace typeName rest path next (heap.set current (.string segment) (.table next))
      | _ => (.error (.namespaceConflict path typeName), heap)

theorem descendInPlace_of_ok {typeName : String} {segments : List String} {path : String} {current : TableId}
    {result : TableId × TableHeap} (descended : descend typeName segments path current heap = .ok result) :
    descendInPlace typeName segments path current heap = (.ok result.1, result.2) := by
  induction segments generalizing path current heap with
  | nil =>
      rcases Except.ok.inj descended with rfl
      rfl
  | cons segment rest ih =>
      rw [descend] at descended
      rw [descendInPlace]
      cases entry : heap.get current (.string segment) with
      | table next =>
          rw [entry] at descended
          exact ih descended
      | nil =>
          rw [entry] at descended
          exact ih descended
      | _ =>
          rw [entry] at descended
          cases descended

end NamespaceTree

/-- What is asked of a namespace tree. -/
inductive Atlas.Request where
  | place (type : TypeRef)
  | forget (type : TypeRef)

namespace Atlas

variable {system : TypeSystem} {placed : TypeRef → TableId → Prop} {atlas : Atlas} {type : TypeRef}

/-- A new tree in tables of its own. -/
def fresh : Atlas := ⟨(NamespaceTree.create .empty).1, (NamespaceTree.create .empty).2⟩

/-- Finds or makes the table of a type; the answer, and all as it stands then, also after a failure. -/
def place (system : TypeSystem) (atlas : Atlas) (type : TypeRef) : Except BindError TableId × Atlas :=
  match atlas.tree.table? type with
  | some id => (.ok id, atlas)
  | none =>
      let segments := system.segments type
      match NamespaceTree.descendInPlace (system.fullName type) segments.dropLast "" atlas.tree.root atlas.heap with
      | (.error error, heap) => (.error error, { atlas with heap })
      | (.ok parent, heap) =>
          -- The last table is made only when nothing can fail any more.
          match NamespaceTree.placeLeaf system type (segments.getLastD "") parent heap with
          | .error error => (.error error, { atlas with heap })
          | .ok (id, heap) => (.ok id, ⟨{ atlas.tree with byType := atlas.tree.byType.insert type id }, heap⟩)

def after (system : TypeSystem) (atlas : Atlas) : Request → Atlas
  | .place type => (atlas.place system type).2
  | .forget type => { atlas with tree := atlas.tree.forget type }

def afterAll (system : TypeSystem) (atlas : Atlas) (requests : List Request) : Atlas :=
  requests.foldl (after system) atlas

theorem afterAll_concat (system : TypeSystem) (atlas : Atlas) (requests : List Request) (request : Request) :
    atlas.afterAll system (requests ++ [request]) = (atlas.afterAll system requests).after system request := by
  rw [afterAll, List.foldl_append]
  rfl

/-- A request of a run that starts afresh placed a type and answered with a table. -/
def Placed (system : TypeSystem) (requests : List Request) (type : TypeRef) (id : TableId) : Prop :=
  ∃ earlier later, requests = earlier ++ .place type :: later ∧
    ((fresh.afterAll system earlier).place system type).1 = .ok id

/-- The shape of the tree, with nothing but tables in it. -/
structure Tidy (system : TypeSystem) (placed : TypeRef → TableId → Prop) (atlas : Atlas) : Prop where
  charted : NamespaceTree.Charted system placed atlas.tree atlas.heap
  bare : Bare atlas.tree.root atlas.heap

theorem Tidy.congr (tidy : Tidy system placed atlas) {other : TypeRef → TableId → Prop}
    (same : ∀ type id, other type id ↔ placed type id) : Tidy system other atlas where
  charted := ⟨tidy.charted.shaped.congr same, fun type id known => (same type id).mpr (tidy.charted.known type id known)⟩
  bare := tidy.bare

theorem Tidy.forget (tidy : Tidy system placed atlas) (type : TypeRef) :
    Tidy system placed { atlas with tree := atlas.tree.forget type } where
  charted := ⟨tidy.charted.shaped, fun other id known => tidy.charted.known other id (FinMap.get?_of_erase known)⟩
  bare := tidy.bare

/-- Placing as it goes is placing at once. -/
theorem place_of_ok {id : TableId} {later : NamespaceTree} {grown : TableHeap}
    (placed : atlas.tree.place system atlas.heap type = .ok (id, later, grown)) :
    atlas.place system type = (.ok id, ⟨later, grown⟩) := by
  rcases NamespaceTree.place_eq_ok placed with ⟨known, rfl, rfl⟩ | ⟨absent, rfl, parent, descended, leaf⟩
  · rw [place, known]
  · rw [place, absent]
    simp only [NamespaceTree.descendInPlace_of_ok descended, leaf]

/-- At a path where a type was placed nothing is made before the conflict is found. -/
theorem Tidy.place_of_conflict (tidy : Tidy system placed atlas) {error : BindError} {other : TypeRef} {id : TableId}
    (failed : atlas.tree.place system atlas.heap type = .error error) (known : placed other id)
    (samePath : system.segments other = system.segments type) :
    atlas.place system type = (.error error, atlas) := by
  cases present : atlas.tree.table? type with
  | some found => rw [NamespaceTree.place, present] at failed; cases failed
  | none =>
      have found := (tidy.charted.shaped.walk?_segments known).1
      rw [samePath, NamespaceTree.segments_eq, TableHeap.walk?_concat] at found
      rcases Option.bind_eq_some_iff.mp found with ⟨parent, reached, -⟩
      have descended := NamespaceTree.descend_of_walk? (system.fullName type) "" reached
      rw [NamespaceTree.place_of_descend present descended] at failed
      rw [place, present]
      simp only [NamespaceTree.descendInPlace_of_ok descended]
      cases leaf : NamespaceTree.placeLeaf system type ((system.segments type).getLastD "") parent atlas.heap with
      | error error => rw [leaf] at failed; cases failed; rfl
      | ok result => rw [leaf] at failed; cases failed

/-- What placing a type leads to: its table, or a conflict with a type of the same path. -/
theorem Tidy.place_cases (tidy : Tidy system placed atlas) (type : TypeRef) :
    (∃ id later, atlas.place system type = (.ok id, later) ∧
        atlas.tree.place system atlas.heap type = .ok (id, later.tree, later.heap) ∧
        Tidy system (fun other known => placed other known ∨ other = type ∧ known = id) later) ∨
      ∃ error other id, atlas.place system type = (.error error, atlas) ∧
        atlas.tree.place system atlas.heap type = .error error ∧ other ≠ type ∧ placed other id ∧
        system.segments other = system.segments type := by
  rcases tidy.charted.place_cases tidy.bare type with
    ⟨id, later, grown, made, sameRoot, bare⟩ | ⟨error, other, id, failed, different, known, samePath⟩
  · exact .inl ⟨id, ⟨later, grown⟩, place_of_ok made, made, tidy.charted.place made, sameRoot ▸ bare⟩
  · exact .inr ⟨error, other, id, tidy.place_of_conflict failed known samePath, failed, different, known, samePath⟩

theorem placed_concat (requests : List Request) (request : Request) (type : TypeRef) (id : TableId) :
    Placed system (requests ++ [request]) type id ↔
      Placed system requests type id ∨
        request = .place type ∧ ((fresh.afterAll system requests).place system type).1 = .ok id := by
  constructor
  · rintro ⟨earlier, later, same, answer⟩
    rcases List.eq_nil_or_concat later with rfl | ⟨front, last, rfl⟩
    · obtain ⟨rfl, rfl⟩ := by simpa using same
      exact .inr ⟨rfl, answer⟩
    · refine .inl ⟨earlier, front, ?_, answer⟩
      rw [List.concat_eq_append, ← List.cons_append, ← List.append_assoc] at same
      exact (List.append_inj' same rfl).1
  · rintro (⟨earlier, later, rfl, answer⟩ | ⟨rfl, answer⟩)
    · exact ⟨earlier, later ++ [request], by simp, answer⟩
    · exact ⟨requests, [], rfl, answer⟩

theorem tidy_fresh (system : TypeSystem) : Tidy system (fun _ _ => False) fresh where
  charted := ⟨Shaped.created system, fun _ _ impossible => by cases impossible⟩
  bare path id name found := by
    rw [(Shaped.walk?_created found).2]
    rfl

/-- The tables of a run are a tree of the types that were placed in it. -/
theorem tidy_afterAll (system : TypeSystem) (requests : List Request) :
    Tidy system (Placed system requests) (fresh.afterAll system requests) := by
  induction requests using List.reverseRecOn with
  | nil => exact (tidy_fresh system).congr fun type id => ⟨fun ⟨_, _, same, _⟩ => by simp at same, False.elim⟩
  | append_singleton requests request ih =>
      rw [afterAll_concat]
      cases request with
      | forget type =>
          refine (ih.forget type).congr fun other id => ?_
          rw [placed_concat, or_iff_left (by simp)]
      | place type =>
          rcases ih.place_cases type with ⟨id, later, made, -, tidy⟩ | ⟨error, -, -, failed, -⟩
          · simp only [after, made]
            refine tidy.congr fun other known => ?_
            rw [placed_concat]
            refine or_congr_right ⟨?_, ?_⟩
            · rintro ⟨⟨⟩, answer⟩
              rw [made] at answer
              exact ⟨rfl, (Except.ok.inj answer).symm⟩
            · rintro ⟨rfl, rfl⟩
              exact ⟨rfl, by rw [made]⟩
          · simp only [after, failed]
            refine ih.congr fun other known => ?_
            rw [placed_concat, or_iff_left]
            rintro ⟨⟨⟩, answer⟩
            rw [failed] at answer
            cases answer

/-- What holds of one more request for a type, after any requests to a tree that started afresh. -/
structure Reaches (system : TypeSystem) (requests : List Request) (type : TypeRef) : Prop where
  /-- The table that is answered stands for the type, at the path of the type. -/
  found : ∀ id after, (fresh.afterAll system requests).place system type = (.ok id, after) →
    after.heap.kind? id = some (.type type) ∧ after.heap.walk? after.tree.root (system.segments type) = some id
  /-- A failure leaves all as it was. -/
  kept : ∀ error after, (fresh.afterAll system requests).place system type = (.error error, after) →
    after = fresh.afterAll system requests
  /-- It fails if and only if another type was placed at the same path. -/
  conflict : (∃ error, ((fresh.afterAll system requests).place system type).1 = .error error) ↔
    ∃ other id, other ≠ type ∧ system.segments other = system.segments type ∧ Placed system requests other id
  /-- A type that was placed is at its path all along, forgotten or not. -/
  reached : ∀ id, Placed system requests type id →
    (fresh.afterAll system requests).heap.kind? id = some (.type type) ∧
      (fresh.afterAll system requests).heap.walk? (fresh.afterAll system requests).tree.root (system.segments type) =
        some id
  /-- Placing it again answers with the same table and makes none. -/
  again : ∀ id, Placed system requests type id →
    ((fresh.afterAll system requests).place system type).1 = .ok id ∧
      ((fresh.afterAll system requests).place system type).2.heap = (fresh.afterAll system requests).heap
  /-- Contexts place types in the same way. -/
  running : (fresh.afterAll system requests).tree.place system (fresh.afterAll system requests).heap type =
    ((fresh.afterAll system requests).place system type).1.map fun id =>
      (id, ((fresh.afterAll system requests).place system type).2.tree,
        ((fresh.afterAll system requests).place system type).2.heap)

/-- After any requests, types are reached at their paths, and two types of one path are the only conflict. -/
theorem reaches (system : TypeSystem) (requests : List Request) (type : TypeRef) :
    Reaches system requests type := by
  have tidy := tidy_afterAll system requests
  have again : ∀ id, Placed system requests type id →
      ∃ later, (fresh.afterAll system requests).place system type =
        (.ok id, ⟨later, (fresh.afterAll system requests).heap⟩) := by
    intro id known
    rcases tidy.charted.place_again known with ⟨later, made⟩
    exact ⟨later, place_of_ok made⟩
  have reached : ∀ id, Placed system requests type id →
      (fresh.afterAll system requests).heap.kind? id = some (.type type) ∧
        (fresh.afterAll system requests).heap.walk? (fresh.afterAll system requests).tree.root
          (system.segments type) = some id :=
    fun id known => (tidy.charted.shaped.walk?_segments known).symm
  -- Either the type is placed now, or another type stands at its path.
  rcases tidy.place_cases type with
    ⟨id, later, made, running, tidyLater⟩ | ⟨error, other, id, failed, running, different, known, samePath⟩
  · have placed := tidyLater.charted.shaped.walk?_segments (.inr ⟨rfl, rfl⟩)
    refine ⟨?_, ?_, ⟨?_, ?_⟩, reached, ?_, by rw [running, made]; rfl⟩
    · intro found after answer
      cases made.symm.trans answer
      exact placed.symm
    · intro error after answer
      cases made.symm.trans answer
    · rintro ⟨error, answer⟩
      rw [made] at answer
      cases answer
    · rintro ⟨other, otherId, different, samePath, known⟩
      exact absurd (tidyLater.charted.shaped.type_unique (.inr ⟨rfl, rfl⟩) (.inl known) samePath) different
    · intro found known
      rcases again found known with ⟨tree, answer⟩
      rw [answer]
      exact ⟨rfl, rfl⟩
  · refine ⟨?_, ?_, ⟨fun _ => ⟨other, id, different, samePath, known⟩, fun _ => ⟨error, by rw [failed]⟩⟩, reached, ?_,
      by rw [running, failed]; rfl⟩
    · intro found after answer
      cases failed.symm.trans answer
    · intro otherError after answer
      cases failed.symm.trans answer
      rfl
    · intro found present
      rcases again found present with ⟨tree, answer⟩
      cases failed.symm.trans answer

end Atlas

end ScriptBridge
