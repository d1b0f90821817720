import Mathlib.Data.List.Forall2
import Mathlib.Data.List.Induction
import Mathlib.Data.List.Nodup
import ScriptBridge.FinMap

/-!
# Entries of finite maps

Keys that are written have one entry each. Of pairs that are written one after the
other the last of a key counts, and only the pairs of a key matter for it.
-/

namespace ScriptBridge.FinMap

variable {κ ν ω : Type} [DecidableEq κ]

theorem lookup_eq_none {key : κ} {entries : List (κ × ν)} (absent : key ∉ entries.map Prod.fst) :
    lookup key entries = none := by
  cases found : lookup key entries with
  | none => rfl
  | some value => exact absurd (List.mem_map.mpr ⟨_, mem_of_lookup found, rfl⟩) absent

theorem nodup_write (key : κ) (value : ν) {entries : List (κ × ν)} (distinct : (entries.map Prod.fst).Nodup) :
    ((write key value entries).map Prod.fst).Nodup := by
  induction entries with
  | nil => simp [write]
  | cons entry rest ih =>
      rw [List.map_cons, List.nodup_cons] at distinct
      rw [write]
      split
      next same => simpa [← same] using distinct
      next different =>
        rw [List.map_cons, List.nodup_cons]
        refine ⟨fun member => ?_, ih distinct.2⟩
        rcases List.mem_map.mp member with ⟨other, written, same⟩
        rcases mem_write written with rfl | older
        · exact different same.symm
        · exact distinct.1 (same ▸ List.mem_map_of_mem older)

theorem nodup_keys_insert {map : FinMap κ ν} (distinct : map.keys.Nodup) (key : κ) (value : ν) :
    (map.insert key value).keys.Nodup :=
  nodup_write key value distinct

theorem nodup_keys_erase {map : FinMap κ ν} (distinct : map.keys.Nodup) (key : κ) : (map.erase key).keys.Nodup :=
  distinct.sublist (List.filter_sublist.map _)

/-- The entries whose keys have a property. -/
def restrict (map : FinMap κ ν) (kept : κ → Bool) : FinMap κ ν := ⟨map.entries.filter fun entry => kept entry.1⟩

theorem filter_write (kept : κ → Bool) (key : κ) (value : ν) (entries : List (κ × ν)) :
    (write key value entries).filter (fun entry => kept entry.1) =
      if kept key then write key value (entries.filter fun entry => kept entry.1)
      else entries.filter fun entry => kept entry.1 := by
  induction entries with
  | nil => cases wanted : kept key <;> simp [write, wanted]
  | cons entry rest ih =>
      by_cases same : entry.1 = key
      · cases wanted : kept key <;> simp [write, same, wanted]
      · cases other : kept entry.1 <;> cases wanted : kept key <;> simp_all [write]

theorem restrict_insert (map : FinMap κ ν) (kept : κ → Bool) (key : κ) (value : ν) :
    (map.insert key value).restrict kept =
      if kept key then (map.restrict kept).insert key value else map.restrict kept := by
  rw [restrict, insert, filter_write]
  split <;> rfl

theorem erase_insert_of_ne (map : FinMap κ ν) {key other : κ} (value : ν) (different : key ≠ other) :
    (map.insert key value).erase other = (map.erase other).insert key value := by
  have kept := filter_write (fun entry => decide (entry ≠ other)) key value map.entries
  rw [if_pos (decide_eq_true different)] at kept
  exact congrArg FinMap.mk kept

theorem get?_restrict (map : FinMap κ ν) {kept : κ → Bool} {key : κ} (wanted : kept key = true) :
    (map.restrict kept).get? key = map.get? key := by
  rw [get?, get?, restrict]
  induction map.entries with
  | nil => rfl
  | cons entry rest ih =>
      by_cases same : entry.1 = key
      · simp [lookup, same, wanted]
      · rw [List.filter_cons]
        split
        · simp only [lookup, if_neg same, ih]
        · simp only [lookup, if_neg same, ih]

theorem isSome_get?_of_mem {map : FinMap κ ν} {key : κ} {value : ν} (listed : (key, value) ∈ map.entries) :
    (map.get? key).isSome := by
  rcases map with ⟨entries⟩
  rw [get?]
  induction entries with
  | nil => cases listed
  | cons entry rest ih => grind [lookup]

/-- A value that is listed under a key is the value of the key, if every key is listed once. -/
theorem get?_of_mem {map : FinMap κ ν} (distinct : map.keys.Nodup) {key : κ} {value : ν}
    (listed : (key, value) ∈ map.entries) : map.get? key = some value := by
  rcases Option.isSome_iff_exists.mp (isSome_get?_of_mem listed) with ⟨other, found⟩
  have same : (key, other) = (key, value) :=
    List.inj_on_of_nodup_map distinct (mem_entries_of_get? found) listed rfl
  rw [found, (Prod.mk.inj same).2]

theorem erase_of_get?_eq_none {map : FinMap κ ν} {key : κ} (absent : map.get? key = none) : map.erase key = map := by
  refine congrArg FinMap.mk (List.filter_eq_self.mpr fun entry listed => decide_eq_true fun same => ?_)
  have present := isSome_get?_of_mem listed
  rw [same, absent] at present
  cases present

/-- After some pairs have been written, a key has the value of the last pair with the key. -/
theorem get?_insertAll (map : FinMap κ ν) (pairs : List (κ × ν)) (key : κ) :
    (map.insertAll pairs).get? key =
      ((pairs.filter fun pair => pair.1 = key).getLast?.map Prod.snd).or (map.get? key) := by
  induction pairs using List.reverseRecOn with
  | nil => rfl
  | append_singleton pairs pair ih =>
      rw [insertAll_append, insertAll, List.foldl_cons, List.foldl_nil, get?_insert, List.filter_append]
      by_cases same : pair.1 = key
      · simp [same]
      · simp [same, Ne.symm same, ih]

theorem isSome_get?_insertAll_of_mem (map : FinMap κ ν) {pairs : List (κ × ν)} {key : κ} {value : ν}
    (listed : (key, value) ∈ pairs) : ((map.insertAll pairs).get? key).isSome := by
  have some : pairs.filter (fun pair => pair.1 = key) ≠ [] :=
    List.ne_nil_of_mem (List.mem_filter.mpr ⟨listed, decide_eq_true rfl⟩)
  rw [get?_insertAll, Option.isSome_or, Option.isSome_map, List.getLast?_isSome.mpr some, Bool.true_or]

/-- Writing the entries of a map gives its values to its keys. -/
theorem get?_insertAll_entries (map : FinMap κ ν) {other : FinMap κ ν} (distinct : other.keys.Nodup) (key : κ) :
    (map.insertAll other.entries).get? key = (other.get? key).or (map.get? key) := by
  rw [get?_insertAll]
  congr 1
  rcases other with ⟨entries⟩
  rw [keys] at distinct
  rw [get?]
  induction entries with
  | nil => rfl
  | cons entry rest ih =>
      rw [List.map_cons, List.nodup_cons] at distinct
      by_cases same : entry.1 = key
      · have none : rest.filter (fun pair => pair.1 = key) = [] := by
          refine List.filter_eq_nil_iff.mpr fun pair listed sameToo => distinct.1 ?_
          rw [same, ← of_decide_eq_true sameToo]
          exact List.mem_map_of_mem listed
        simp [lookup, same, none]
      · simpa [lookup, same] using ih distinct.2

/-- Maps that agree up to a relation still do after pairs that agree have been written. -/
theorem rel_insertAll {related : κ → ν → ω → Prop} {pairs : List (κ × ν)} {others : List (κ × ω)}
    (all : List.Forall₂ (fun pair other => pair.1 = other.1 ∧ related other.1 pair.2 other.2) pairs others)
    {left : FinMap κ ν} {right : FinMap κ ω}
    (started : ∀ key, Option.Rel (related key) (left.get? key) (right.get? key)) (key : κ) :
    Option.Rel (related key) ((left.insertAll pairs).get? key) ((right.insertAll others).get? key) := by
  induction all generalizing left right with
  | nil => exact started key
  | @cons pair other _ _ first _ ih =>
      refine ih fun key => ?_
      dsimp only
      rw [first.1, get?_insert, get?_insert]
      split
      next same => exact .some (same ▸ first.2)
      next => exact started key

section Related

variable {α β γ : Type} {left : Option α} {right : Option β}

theorem rel_refl {related : α → α → Prop} {value : Option α} (same : ∀ one, related one one) :
    Option.Rel related value value := by
  cases value with
  | none => exact .none
  | some one => exact .some (same one)

theorem rel_imp {related weaker : α → β → Prop} (holds : Option.Rel related left right)
    (implied : ∀ one two, related one two → weaker one two) : Option.Rel weaker left right := by
  cases holds with
  | none => exact .none
  | some holds => exact .some (implied _ _ holds)

theorem rel_map {δ : Type} {related : α → β → Prop} {mapped : γ → δ → Prop} {first : α → γ} {second : β → δ}
    (holds : Option.Rel related left right) (implied : ∀ one two, related one two → mapped (first one) (second two)) :
    Option.Rel mapped (left.map first) (right.map second) := by
  cases holds with
  | none => exact .none
  | some holds => exact .some (implied _ _ holds)

theorem isSome_eq_of_rel {related : α → β → Prop} (holds : Option.Rel related left right) :
    left.isSome = right.isSome := by
  cases holds <;> rfl

theorem map_eq_of_rel {first : α → γ} {second : β → γ}
    (holds : Option.Rel (fun one two => first one = second two) left right) : left.map first = right.map second := by
  cases holds with
  | none => rfl
  | some same => exact congrArg some same

end Related

end ScriptBridge.FinMap
