import ScriptBridge.Proofs.Modes.Renaming
import ScriptBridge.Proofs.Related

/-!
# Tables with corresponding entries

Two contexts that do the same work hold the same tables, except that a function
in a table of one context is another function in that of the other. Reading and
writing entries and placing types keeps tables so.
-/

namespace ScriptBridge

variable {rename : Equiv.Perm CacheTag} {handles : CallableHandle → CallableHandle → Prop}

/-- The same value up to the mark of proxies, or functions that are related. -/
inductive ScriptValue.Corresponds (rename : Equiv.Perm CacheTag)
    (handles : CallableHandle → CallableHandle → Prop) : ScriptValue → ScriptValue → Prop
  | data (value : ScriptValue) (noFunction : value.asFunction? = none) :
      Corresponds rename handles value (value.retag rename)
  | function {left right : CallableHandle} (related : handles left right) :
      Corresponds rename handles (.function left) (.function right)

namespace ScriptValue.Corresponds

variable {left right : ScriptValue}

theorem nil : Corresponds rename handles .nil .nil := .data .nil rfl

theorem table (id : TableId) : Corresponds rename handles (.table id) (.table id) := .data (.table id) rfl

theorem isNil_eq (corresponds : Corresponds rename handles left right) : right.isNil = left.isNil := by
  cases corresponds with
  | data value noFunction => exact isNil_retag _
  | function related => rfl

theorem kindName_eq (corresponds : Corresponds rename handles left right) : right.kindName = left.kindName := by
  cases corresponds with
  | data value noFunction => exact kindName_retag _
  | function related => rfl

theorem mono {weaker : CallableHandle → CallableHandle → Prop}
    (corresponds : Corresponds rename handles left right)
    (implied : ∀ handle other, handles handle other → weaker handle other) :
    Corresponds rename weaker left right := by
  cases corresponds with
  | data _ noFunction => exact .data _ noFunction
  | function related => exact .function (implied _ _ related)

theorem asTable?_eq (corresponds : Corresponds rename handles left right) : right.asTable? = left.asTable? := by
  cases corresponds with
  | data _ noFunction => cases left <;> rfl
  | function related => rfl

theorem likeness : ScriptValue.Likeness (Corresponds rename handles) where
  nil := nil
  table := table
  isNil_eq := isNil_eq
  asTable?_eq := asTable?_eq

end ScriptValue.Corresponds

/-- The tables stand for the same and have corresponding entries. -/
structure ScriptTable.Related (rename : Equiv.Perm CacheTag)
    (handles : CallableHandle → CallableHandle → Prop) (left right : ScriptTable) : Prop where
  kind : right.kind = left.kind
  entries : FinMap.Related (fun _ => ScriptValue.Corresponds rename handles) left.entries right.entries

theorem ScriptTable.related_iff_paired {left right : ScriptTable} :
    Related rename handles left right ↔ Paired (ScriptValue.Corresponds rename handles) left right :=
  ⟨fun related => ⟨related.kind, related.entries⟩, fun paired => ⟨paired.kind, paired.entries⟩⟩

/-- The heaps have equally many tables, each related to the one of its number. -/
structure TableHeap.Related (rename : Equiv.Perm CacheTag)
    (handles : CallableHandle → CallableHandle → Prop) (left right : TableHeap) : Prop where
  size : right.tables.size = left.tables.size
  tables : ∀ id, Option.Rel (ScriptTable.Related rename handles) (left.table? id) (right.table? id)

namespace TableHeap

variable {left right : TableHeap}

theorem related_empty : Related rename handles empty empty := ⟨rfl, fun _ => .none⟩

theorem related_iff_paired :
    Related rename handles left right ↔ Paired (ScriptValue.Corresponds rename handles) left right := by
  have same : ScriptTable.Related rename handles = ScriptTable.Paired (ScriptValue.Corresponds rename handles) :=
    funext fun _ => funext fun _ => propext ScriptTable.related_iff_paired
  exact ⟨fun related => ⟨related.size, same ▸ related.tables⟩, fun paired => ⟨paired.size, same ▸ paired.tables⟩⟩

theorem Related.paired (holds : Related rename handles left right) :
    Paired (ScriptValue.Corresponds rename handles) left right :=
  related_iff_paired.mp holds

theorem Related.table?_cases (holds : Related rename handles left right) (id : TableId) :
    (left.table? id = none ∧ right.table? id = none) ∨
      ∃ table other, left.table? id = some table ∧ right.table? id = some other ∧
        ScriptTable.Related rename handles table other := by
  rcases holds.paired.table?_cases id with absent | ⟨table, other, found, otherFound, paired⟩
  · exact .inl absent
  · exact .inr ⟨table, other, found, otherFound, ScriptTable.related_iff_paired.mpr paired⟩

theorem Related.mono {weaker : CallableHandle → CallableHandle → Prop}
    (holds : Related rename handles left right)
    (implied : ∀ handle other, handles handle other → weaker handle other) :
    Related rename weaker left right := by
  refine ⟨holds.size, fun id => ?_⟩
  rcases holds.table?_cases id with ⟨absent, otherAbsent⟩ | ⟨table, other, found, otherFound, related⟩
  · rw [absent, otherAbsent]
    exact .none
  · rw [found, otherFound]
    exact .some ⟨related.kind, related.entries.mono fun _ _ _ entry => entry.mono implied⟩

theorem Related.kind?_eq (holds : Related rename handles left right) (id : TableId) :
    right.kind? id = left.kind? id :=
  holds.paired.kind?_eq id

theorem Related.typeOf?_eq (holds : Related rename handles left right) (id : TableId) :
    right.typeOf? id = left.typeOf? id :=
  holds.paired.typeOf?_eq id

theorem Related.get (holds : Related rename handles left right) (id : TableId) (key : ScriptKey) :
    (left.get id key).Corresponds rename handles (right.get id key) :=
  holds.paired.get ScriptValue.Corresponds.likeness id key

theorem Related.create (holds : Related rename handles left right) (kind : TableKind) :
    (right.create kind).1 = (left.create kind).1 ∧
      Related rename handles (left.create kind).2 (right.create kind).2 :=
  (holds.paired.create kind).imp_right related_iff_paired.mpr

theorem Related.set (holds : Related rename handles left right) (id : TableId) (key : ScriptKey)
    {value other : ScriptValue} (corresponds : value.Corresponds rename handles other) :
    Related rename handles (left.set id key value) (right.set id key other) :=
  related_iff_paired.mpr (holds.paired.set ScriptValue.Corresponds.likeness id key corresponds)

end TableHeap

/-- The same table for the type in the same tree, in heaps that are related. -/
theorem NamespaceTree.related_place {left right : TableHeap} (system : TypeSystem) (tree : NamespaceTree)
    (type : TypeRef) (heaps : TableHeap.Related rename handles left right) :
    Except.Related
      (fun placed other => other.1 = placed.1 ∧ other.2.1 = placed.2.1 ∧
        TableHeap.Related rename handles placed.2.2 other.2.2)
      (tree.place system left type) (tree.place system right type) := by
  simp only [TableHeap.related_iff_paired] at heaps ⊢
  exact paired_place ScriptValue.Corresponds.likeness system tree type heaps

end ScriptBridge
