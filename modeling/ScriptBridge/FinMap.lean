/-!
# Finite maps

A finite map as the list of its entries in the order in which their keys first
came. Writing a key that is present keeps its place, so that folding over the
entries is deterministic.
-/

namespace ScriptBridge

/-- A finite map; `insert` keeps its keys distinct. -/
structure FinMap (κ ν : Type) where
  entries : List (κ × ν)

namespace FinMap

variable {κ ν : Type}

def empty : FinMap κ ν := ⟨[]⟩

instance : Inhabited (FinMap κ ν) := ⟨empty⟩

def keys (map : FinMap κ ν) : List κ := map.entries.map Prod.fst

def values (map : FinMap κ ν) : List ν := map.entries.map Prod.snd

def size (map : FinMap κ ν) : Nat := map.entries.length

def isEmpty (map : FinMap κ ν) : Bool := map.entries.isEmpty

variable [DecidableEq κ]

/-- The value of the first entry with the key. -/
def lookup (key : κ) : List (κ × ν) → Option ν
  | [] => none
  | entry :: rest => if entry.1 = key then some entry.2 else lookup key rest

/-- The entries with the key's value replaced, or with a new entry at the end. -/
def write (key : κ) (value : ν) : List (κ × ν) → List (κ × ν)
  | [] => [(key, value)]
  | entry :: rest =>
      if entry.1 = key then (key, value) :: rest else entry :: write key value rest

def get? (map : FinMap κ ν) (key : κ) : Option ν := lookup key map.entries

def contains (map : FinMap κ ν) (key : κ) : Bool := (map.get? key).isSome

def insert (map : FinMap κ ν) (key : κ) (value : ν) : FinMap κ ν := ⟨write key value map.entries⟩

def erase (map : FinMap κ ν) (key : κ) : FinMap κ ν :=
  ⟨map.entries.filter fun entry => entry.1 ≠ key⟩

def insertAll (map : FinMap κ ν) (pairs : List (κ × ν)) : FinMap κ ν :=
  pairs.foldl (fun result pair => result.insert pair.1 pair.2) map

/-- The map that the pairs of a list make; of equal keys the last wins. -/
def ofList (pairs : List (κ × ν)) : FinMap κ ν := empty.insertAll pairs

theorem lookup_write (key other : κ) (value : ν) (entries : List (κ × ν)) :
    lookup other (write key value entries) =
      if other = key then some value else lookup other entries := by
  induction entries with
  | nil => grind [lookup, write]
  | cons entry rest ih => grind [lookup, write]

theorem length_write (key : κ) (value : ν) (entries : List (κ × ν)) :
    (write key value entries).length = entries.length + if (lookup key entries).isSome then 0 else 1 := by
  induction entries with
  | nil => rfl
  | cons entry rest ih => grind [lookup, write]

theorem lookup_filter_ne (key other : κ) (entries : List (κ × ν)) :
    lookup other (entries.filter fun entry => entry.1 ≠ key) =
      if other = key then none else lookup other entries := by
  induction entries with
  | nil => simp [lookup]
  | cons entry rest ih =>
      by_cases removed : entry.1 = key
      · simp only [List.filter, removed, ne_eq, not_true_eq_false, decide_false, ih]
        grind [lookup]
      · simp only [List.filter, ne_eq, removed, not_false_eq_true, decide_true]
        grind [lookup]

theorem mem_write {key : κ} {value : ν} {entries : List (κ × ν)} {entry : κ × ν}
    (member : entry ∈ write key value entries) : entry = (key, value) ∨ entry ∈ entries := by
  induction entries with
  | nil => exact Or.inl (List.mem_singleton.mp member)
  | cons first rest ih => grind [write]

theorem mem_of_lookup {key : κ} {value : ν} {entries : List (κ × ν)} (found : lookup key entries = some value) :
    (key, value) ∈ entries := by
  induction entries with
  | nil => cases found
  | cons entry rest ih => grind [lookup]

theorem mem_entries_of_get? {map : FinMap κ ν} {key : κ} {value : ν} (found : map.get? key = some value) :
    (key, value) ∈ map.entries :=
  mem_of_lookup found

theorem mem_entries_insert {map : FinMap κ ν} {key : κ} {value : ν} {entry : κ × ν}
    (member : entry ∈ (map.insert key value).entries) : entry = (key, value) ∨ entry ∈ map.entries :=
  mem_write member

theorem mem_entries_insertAll {map : FinMap κ ν} {pairs : List (κ × ν)} {entry : κ × ν}
    (member : entry ∈ (map.insertAll pairs).entries) : entry ∈ pairs ∨ entry ∈ map.entries := by
  induction pairs generalizing map with
  | nil => exact Or.inr member
  | cons pair rest ih =>
      rcases ih member with later | earlier
      · exact Or.inl (List.mem_cons_of_mem _ later)
      · rcases mem_write earlier with rfl | older
        · exact Or.inl List.mem_cons_self
        · exact Or.inr older

theorem mem_entries_ofList {pairs : List (κ × ν)} {entry : κ × ν}
    (member : entry ∈ (ofList pairs).entries) : entry ∈ pairs :=
  (mem_entries_insertAll member).resolve_right List.not_mem_nil

@[simp]
theorem get?_empty (key : κ) : (empty : FinMap κ ν).get? key = none := rfl

@[grind =]
theorem get?_insert (map : FinMap κ ν) (key other : κ) (value : ν) :
    (map.insert key value).get? other = if other = key then some value else map.get? other :=
  lookup_write key other value map.entries

@[simp]
theorem get?_insert_self (map : FinMap κ ν) (key : κ) (value : ν) :
    (map.insert key value).get? key = some value := by
  simp [get?_insert]

theorem get?_insert_of_ne (map : FinMap κ ν) {key other : κ} (value : ν) (distinct : other ≠ key) :
    (map.insert key value).get? other = map.get? other := by
  simp [get?_insert, distinct]

/-- What a map has under a key once an entry is written was written, or was there before. -/
theorem eq_or_get?_of_insert {map : FinMap κ ν} {key other : κ} {value found : ν}
    (present : (map.insert key value).get? other = some found) :
    other = key ∧ found = value ∨ map.get? other = some found := by
  grind

theorem size_insert (map : FinMap κ ν) (key : κ) (value : ν) :
    (map.insert key value).size = map.size + if (map.get? key).isSome then 0 else 1 :=
  length_write key value map.entries

theorem isSome_get?_insert {map : FinMap κ ν} {key other : κ} (present : (map.get? key).isSome) (value : ν) :
    ((map.insert other value).get? key).isSome := by
  grind

theorem isSome_get?_insertAll {map : FinMap κ ν} {key : κ} (present : (map.get? key).isSome)
    (pairs : List (κ × ν)) : ((map.insertAll pairs).get? key).isSome := by
  induction pairs generalizing map with
  | nil => exact present
  | cons pair rest ih => exact ih (isSome_get?_insert present pair.2)

theorem get?_insertAll_of_not_mem (map : FinMap κ ν) {key : κ} {pairs : List (κ × ν)}
    (absent : ¬∃ pair ∈ pairs, pair.1 = key) : (map.insertAll pairs).get? key = map.get? key := by
  induction pairs generalizing map with
  | nil => rfl
  | cons first rest ih =>
      rw [insertAll, List.foldl_cons, ← insertAll, ih, get?_insert_of_ne]
      · exact fun same => absent ⟨first, List.mem_cons_self, same.symm⟩
      · exact fun ⟨pair, present, same⟩ => absent ⟨pair, List.mem_cons_of_mem _ present, same⟩

/-- A key that is among some pairs has the value of one of them once they are all written. -/
theorem exists_get?_insertAll (map : FinMap κ ν) {key : κ} {pairs : List (κ × ν)}
    (listed : ∃ pair ∈ pairs, pair.1 = key) :
    ∃ pair ∈ pairs, pair.1 = key ∧ (map.insertAll pairs).get? key = some pair.2 := by
  induction pairs generalizing map with
  | nil =>
      rcases listed with ⟨_, impossible, -⟩
      cases impossible
  | cons first rest ih =>
      by_cases later : ∃ pair ∈ rest, pair.1 = key
      · rcases ih (map.insert first.1 first.2) later with ⟨pair, present, same, found⟩
        exact ⟨pair, List.mem_cons_of_mem _ present, same, found⟩
      · rcases listed with ⟨pair, present, same⟩
        rcases List.mem_cons.mp present with rfl | impossible
        · refine ⟨pair, present, same, ?_⟩
          rw [insertAll, List.foldl_cons, ← insertAll, get?_insertAll_of_not_mem _ later, same, get?_insert_self]
        · exact absurd ⟨pair, impossible, same⟩ later

theorem insertAll_append (map : FinMap κ ν) (first second : List (κ × ν)) :
    map.insertAll (first ++ second) = (map.insertAll first).insertAll second :=
  List.foldl_append

@[grind =]
theorem get?_erase (map : FinMap κ ν) (key other : κ) :
    (map.erase key).get? other = if other = key then none else map.get? other :=
  lookup_filter_ne key other map.entries

theorem get?_of_erase {map : FinMap κ ν} {key other : κ} {found : ν}
    (present : (map.erase key).get? other = some found) : map.get? other = some found := by
  grind

end FinMap

end ScriptBridge
