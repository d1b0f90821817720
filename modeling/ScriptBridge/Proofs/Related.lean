import Mathlib.Data.List.Forall2
import ScriptBridge.Binding.NamespaceTree

/-!
# Related maps and tables

Results, finite maps and tables that differ only in values that are related. Reading
and writing entries and placing types keeps tables so, whatever the relation is, as
long as it tells tables and nil from each other and from the rest.
-/

namespace ScriptBridge

/-- The same failure, or results that are related. -/
inductive Except.Related {ε α β : Type} (related : α → β → Prop) : Except ε α → Except ε β → Prop
  | error (error : ε) : Related related (.error error) (.error error)
  | ok {value : α} {other : β} (holds : related value other) : Related related (.ok value) (.ok other)

namespace Except.Related

variable {ε δ α β γ ζ : Type} {related : α → β → Prop} {result : Except ε α} {twin : Except ε β}

theorem mono {weaker : α → β → Prop} (results : Related related result twin)
    (implied : ∀ value other, related value other → weaker value other) : Related weaker result twin := by
  cases results with
  | error error => exact .error error
  | ok holds => exact .ok (implied _ _ holds)

/-- Results stay related when both failures are changed alike. -/
theorem mapError (results : Related related result twin) (change : ε → δ) :
    Related related (result.mapError change) (twin.mapError change) := by
  cases results with
  | error error => exact .error (change error)
  | ok holds => exact .ok holds

theorem bind {final : γ → ζ → Prop} {next : α → Except ε γ} {otherNext : β → Except ε ζ}
    (results : Related related result twin)
    (rest : ∀ value other, related value other → Related final (next value) (otherNext other)) :
    Related final (result >>= next) (twin >>= otherNext) := by
  cases results with
  | error error => exact .error error
  | ok holds => exact rest _ _ holds

end Except.Related

/-- The maps have the same keys in the same order, and related values under each key. -/
def FinMap.Related {κ ν μ : Type} (related : κ → ν → μ → Prop) (left : FinMap κ ν) (right : FinMap κ μ) :
    Prop :=
  List.Forall₂ (fun entry other => entry.1 = other.1 ∧ related entry.1 entry.2 other.2) left.entries
    right.entries

namespace FinMap

variable {κ ν μ : Type} {related : κ → ν → μ → Prop} {left : FinMap κ ν} {right : FinMap κ μ}

theorem related_empty : Related related (empty : FinMap κ ν) (empty : FinMap κ μ) := .nil

theorem Related.mono {weaker : κ → ν → μ → Prop} (holds : Related related left right)
    (implied : ∀ key value other, related key value other → weaker key value other) :
    Related weaker left right :=
  List.Forall₂.imp (fun _ _ entries => ⟨entries.1, implied _ _ _ entries.2⟩) holds

variable [DecidableEq κ]

theorem Related.get? (holds : Related related left right) (key : κ) :
    Option.Rel (related key) (left.get? key) (right.get? key) := by
  rcases left with ⟨entries⟩
  rcases right with ⟨others⟩
  change List.Forall₂ _ entries others at holds
  change Option.Rel _ (lookup key entries) (lookup key others)
  induction holds with
  | nil => exact .none
  | @cons entry other rest others first _ ih =>
      rcases first with ⟨sameKey, content⟩
      rw [lookup, lookup, ← sameKey]
      split
      next same =>
        subst same
        exact .some content
      next => exact ih

theorem Related.insert (holds : Related related left right) {key : κ} {value : ν} {other : μ}
    (content : related key value other) :
    Related related (left.insert key value) (right.insert key other) := by
  rcases left with ⟨entries⟩
  rcases right with ⟨others⟩
  change List.Forall₂ _ entries others at holds
  change List.Forall₂ _ (write key value entries) (write key other others)
  induction holds with
  | nil => exact .cons ⟨rfl, content⟩ .nil
  | @cons entry other rest others first others ih =>
      rw [write, write, ← first.1]
      split
      · exact .cons ⟨rfl, content⟩ others
      · exact .cons first ih

/-- Only the right map is written, under a key that is present with a value that suits the new one. -/
theorem Related.insert_right (holds : Related related left right) {key : κ} {value : ν} {other : μ}
    (present : left.get? key = some value) (content : related key value other) :
    Related related left (right.insert key other) := by
  rcases left with ⟨entries⟩
  rcases right with ⟨others⟩
  change List.Forall₂ _ entries others at holds
  change lookup key entries = some value at present
  change List.Forall₂ _ entries (write key other others)
  induction holds with
  | nil => cases present
  | @cons entry other rest others first others ih =>
      rw [write, ← first.1]
      rw [lookup] at present
      split
      next same =>
        rw [if_pos same] at present
        rcases Option.some.inj present with rfl
        subst same
        exact .cons ⟨rfl, content⟩ others
      next different =>
        rw [if_neg different] at present
        exact .cons first (ih present)

theorem Related.erase (holds : Related related left right) (key : κ) :
    Related related (left.erase key) (right.erase key) := by
  rcases left with ⟨entries⟩
  rcases right with ⟨others⟩
  change List.Forall₂ _ entries others at holds
  change List.Forall₂ _ (List.filter _ entries) (List.filter _ others)
  induction holds with
  | nil => exact .nil
  | @cons entry other rest others first others ih =>
      rw [List.filter_cons, List.filter_cons, ← first.1]
      split
      · exact .cons first ih
      · exact ih

theorem Related.insertAll (holds : Related related left right) {pairs : List (κ × ν)} {others : List (κ × μ)}
    (contents : List.Forall₂ (fun pair other => pair.1 = other.1 ∧ related pair.1 pair.2 other.2) pairs others) :
    Related related (left.insertAll pairs) (right.insertAll others) := by
  induction contents generalizing left right with
  | nil => exact holds
  | @cons pair other rest others first _ ih =>
      rcases pair with ⟨key, value⟩
      rcases other with ⟨otherKey, otherValue⟩
      rcases first with ⟨rfl, content⟩
      exact ih (holds.insert content)

end FinMap

/-- A relation of values that leaves tables and nil in place. -/
structure ScriptValue.Likeness (alike : ScriptValue → ScriptValue → Prop) : Prop where
  nil : alike .nil .nil
  table : ∀ id, alike (.table id) (.table id)
  isNil_eq : ∀ {left right}, alike left right → right.isNil = left.isNil
  asTable?_eq : ∀ {left right}, alike left right → right.asTable? = left.asTable?

/-- The tables stand for the same and have entries that are alike. -/
structure ScriptTable.Paired (alike : ScriptValue → ScriptValue → Prop) (left right : ScriptTable) : Prop where
  kind : right.kind = left.kind
  entries : FinMap.Related (fun _ => alike) left.entries right.entries

/-- The heaps have equally many tables, each paired with the one of its number. -/
structure TableHeap.Paired (alike : ScriptValue → ScriptValue → Prop) (left right : TableHeap) : Prop where
  size : right.tables.size = left.tables.size
  tables : ∀ id, Option.Rel (ScriptTable.Paired alike) (left.table? id) (right.table? id)

variable {alike : ScriptValue → ScriptValue → Prop}

namespace ScriptValue

theorem eq_table_of_asTable? {value : ScriptValue} {id : TableId} (same : value.asTable? = some id) :
    value = .table id := by
  cases value with
  | table other => exact congrArg table (Option.some.inj same)
  | _ => cases same

theorem eq_nil_of_isNil {value : ScriptValue} (isNil : value.isNil = true) : value = .nil := of_decide_eq_true isNil

namespace Likeness

variable {left right : ScriptValue} {id : TableId}

theorem eq_table (likeness : Likeness alike) (related : alike (.table id) right) : right = .table id :=
  eq_table_of_asTable? (likeness.asTable?_eq related)

theorem eq_nil (likeness : Likeness alike) (related : alike .nil right) : right = .nil :=
  eq_nil_of_isNil (likeness.isNil_eq related)

end Likeness

end ScriptValue

theorem ScriptTable.Paired.set (likeness : ScriptValue.Likeness alike) {left right : ScriptTable}
    (paired : Paired alike left right) (key : ScriptKey) {value other : ScriptValue} (related : alike value other) :
    Paired alike (left.set key value) (right.set key other) := by
  rw [ScriptTable.set, ScriptTable.set, likeness.isNil_eq related]
  split
  · exact ⟨paired.kind, paired.entries.erase key⟩
  · exact ⟨paired.kind, paired.entries.insert related⟩

namespace TableHeap.Paired

variable {left right : TableHeap}

theorem refl (reflexive : ∀ value, alike value value) (heap : TableHeap) : Paired alike heap heap := by
  refine ⟨rfl, fun id => ?_⟩
  cases heap.table? id with
  | none => exact .none
  | some table => exact .some ⟨rfl, List.forall₂_same.mpr fun entry _ => ⟨rfl, reflexive entry.2⟩⟩

theorem table?_cases (paired : Paired alike left right) (id : TableId) :
    (left.table? id = none ∧ right.table? id = none) ∨
      ∃ table other, left.table? id = some table ∧ right.table? id = some other ∧
        ScriptTable.Paired alike table other := by
  have tables := paired.tables id
  generalize left.table? id = found at *
  generalize right.table? id = otherFound at *
  cases tables with
  | none => exact Or.inl ⟨rfl, rfl⟩
  | some related => exact Or.inr ⟨_, _, rfl, rfl, related⟩

theorem kind?_eq (paired : Paired alike left right) (id : TableId) : right.kind? id = left.kind? id := by
  rcases paired.table?_cases id with ⟨absent, otherAbsent⟩ | ⟨table, other, found, otherFound, related⟩
  · rw [kind?, kind?, absent, otherAbsent]
  · rw [kind?, kind?, found, otherFound, Option.map_some, Option.map_some, related.kind]

theorem typeOf?_eq (paired : Paired alike left right) (id : TableId) : right.typeOf? id = left.typeOf? id := by
  rw [typeOf?, typeOf?, paired.kind?_eq]

variable (likeness : ScriptValue.Likeness alike)

include likeness

theorem get (paired : Paired alike left right) (id : TableId) (key : ScriptKey) :
    alike (left.get id key) (right.get id key) := by
  rw [TableHeap.get, TableHeap.get]
  rcases paired.table?_cases id with ⟨absent, otherAbsent⟩ | ⟨table, other, found, otherFound, related⟩
  · rw [absent, otherAbsent]
    exact likeness.nil
  · rw [found, otherFound]
    have entries := related.entries.get? key
    simp only [Option.bind_some, ScriptTable.get?]
    generalize table.entries.get? key = entry at *
    generalize other.entries.get? key = otherEntry at *
    cases entries with
    | none => exact likeness.nil
    | some related => exact related

omit likeness in
theorem create (paired : Paired alike left right) (kind : TableKind) :
    (right.create kind).1 = (left.create kind).1 ∧
      Paired alike (left.create kind).2 (right.create kind).2 := by
  have sameId : (right.create kind).1 = (left.create kind).1 := by
    simp only [TableHeap.create, paired.size]
  refine ⟨sameId, by simp [TableHeap.create, paired.size], fun id => ?_⟩
  rw [table?_create, table?_create, sameId]
  split
  · exact .some ⟨rfl, FinMap.related_empty⟩
  · exact paired.tables id

theorem set (paired : Paired alike left right) (id : TableId) (key : ScriptKey) {value other : ScriptValue}
    (related : alike value other) : Paired alike (left.set id key value) (right.set id key other) := by
  refine ⟨?_, fun place => ?_⟩
  · rw [TableHeap.set, TableHeap.set]
    rcases paired.table?_cases id with ⟨absent, otherAbsent⟩ | ⟨table, otherTable, found, otherFound, -⟩
    · rw [absent, otherAbsent]
      exact paired.size
    · simpa [found, otherFound] using paired.size
  · rw [table?_set, table?_set]
    split
    · rcases paired.table?_cases id with ⟨absent, otherAbsent⟩ | ⟨table, otherTable, found, otherFound, tables⟩
      · rw [absent, otherAbsent]
        exact .none
      · rw [found, otherFound]
        exact .some (tables.set likeness key related)
    · exact paired.tables place

theorem setAll (paired : Paired alike left right) (id : TableId) {entries others : List (ScriptKey × ScriptValue)}
    (contents : List.Forall₂ (fun entry other => entry.1 = other.1 ∧ alike entry.2 other.2) entries others) :
    Paired alike (entries.foldl (fun heap entry => heap.set id entry.1 entry.2) left)
      (others.foldl (fun heap entry => heap.set id entry.1 entry.2) right) := by
  induction contents generalizing left right with
  | nil => exact paired
  | @cons entry other rest others first _ ih =>
      rw [List.foldl_cons, List.foldl_cons, ← first.1]
      exact ih (paired.set likeness id entry.1 first.2)

end TableHeap.Paired

namespace NamespaceTree

variable {left right : TableHeap}

/-- The same table in heaps that are paired. -/
def PairedTable (alike : ScriptValue → ScriptValue → Prop) (placed other : TableId × TableHeap) : Prop :=
  other.1 = placed.1 ∧ TableHeap.Paired alike placed.2 other.2

variable (likeness : ScriptValue.Likeness alike)

include likeness

/-- On the way to a type both heaps have the same tables, lack the same tables, or have something in the way. -/
theorem paired_descend (typeName : String) (segments : List String) (path : String) (current : TableId)
    (heaps : TableHeap.Paired alike left right) :
    Except.Related (PairedTable alike) (descend typeName segments path current left)
      (descend typeName segments path current right) := by
  induction segments generalizing path current left right with
  | nil => exact .ok ⟨rfl, heaps⟩
  | cons segment rest ih =>
      have entry := heaps.get likeness current (.string segment)
      have sameNil := likeness.isNil_eq entry
      have sameTable := likeness.asTable?_eq entry
      rw [descend, descend]
      generalize left.get current (.string segment) = found at *
      generalize right.get current (.string segment) = other at *
      cases found with
      | table next =>
          rcases likeness.eq_table entry with rfl
          exact ih _ next heaps
      | nil =>
          rcases likeness.eq_nil entry with rfl
          rcases heaps.create (.space (extendPath path segment)) with ⟨sameId, created⟩
          dsimp only
          rw [sameId]
          exact ih _ _ (created.set likeness current (.string segment) (likeness.table _))
      | _ =>
          cases other with
          | nil => cases sameNil
          | table => cases sameTable
          | _ => exact .error _

theorem paired_placeNew (heaps : TableHeap.Paired alike left right) (parent : TableId) (name : String)
    (type : TypeRef) {entries others : List (ScriptKey × ScriptValue)}
    (contents : List.Forall₂ (fun entry other => entry.1 = other.1 ∧ alike entry.2 other.2) entries others) :
    PairedTable alike (placeNew left parent name type entries) (placeNew right parent name type others) := by
  have created := heaps.create (.type type)
  rw [placeNew, placeNew]
  generalize left.create (.type type) = made at *
  generalize right.create (.type type) = otherMade at *
  rcases made with ⟨id, heap⟩
  rcases otherMade with ⟨otherId, otherHeap⟩
  rcases created with ⟨rfl, empty⟩
  exact ⟨rfl, (empty.setAll likeness otherId contents).set likeness parent (.string name) (likeness.table otherId)⟩

theorem paired_placeLeaf (system : TypeSystem) (type : TypeRef) (name : String) (parent : TableId)
    (heaps : TableHeap.Paired alike left right) :
    Except.Related (PairedTable alike) (placeLeaf system type name parent left)
      (placeLeaf system type name parent right) := by
  have entry := heaps.get likeness parent (.string name)
  have sameNil := likeness.isNil_eq entry
  have sameTable := likeness.asTable?_eq entry
  rw [placeLeaf, placeLeaf]
  generalize left.get parent (.string name) = found at *
  generalize right.get parent (.string name) = other at *
  cases found with
  | table existing =>
      rcases likeness.eq_table entry with rfl
      dsimp only
      rw [heaps.kind?_eq existing]
      split
      next other _ =>
        split
        · exact .ok ⟨rfl, heaps⟩
        · exact .error _
      next =>
        refine .ok (paired_placeNew likeness heaps parent name type ?_)
        rcases heaps.table?_cases existing with
          ⟨absent, otherAbsent⟩ | ⟨table, other, present, otherPresent, related⟩
        · rw [absent, otherAbsent]
          exact .nil
        · rw [present, otherPresent]
          exact related.entries
      next => exact .error _
  | nil =>
      rcases likeness.eq_nil entry with rfl
      exact .ok (paired_placeNew likeness heaps parent name type .nil)
  | _ =>
      cases other with
      | nil => cases sameNil
      | table => cases sameTable
      | _ => exact .error _

/-- The same table for the type in the same tree, in heaps that are paired. -/
theorem paired_place (system : TypeSystem) (tree : NamespaceTree) (type : TypeRef)
    (heaps : TableHeap.Paired alike left right) :
    Except.Related
      (fun placed other => other.1 = placed.1 ∧ other.2.1 = placed.2.1 ∧
        TableHeap.Paired alike placed.2.2 other.2.2)
      (tree.place system left type) (tree.place system right type) := by
  rw [place, place]
  split
  · exact .ok ⟨rfl, rfl, heaps⟩
  · have descended := paired_descend likeness (system.fullName type)
      (system.segments type).dropLast "" tree.root heaps
    refine descended.bind ?_
    rintro ⟨parent, heap⟩ ⟨otherParent, otherHeap⟩ ⟨rfl, deeper⟩
    have leaf := paired_placeLeaf likeness system type ((system.segments type).getLastD "") otherParent deeper
    exact leaf.bind fun _ _ same => .ok ⟨same.1, by rw [same.1], same.2⟩

end NamespaceTree

end ScriptBridge
