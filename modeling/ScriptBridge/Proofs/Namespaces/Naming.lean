import ScriptBridge.Proofs.Namespaces.Orderly
import ScriptBridge.Proofs.Tables.Declared

/-!
# Names of types

A host is unambiguous if its registered types can be told apart by their dotted
paths, from each other, from namespaces, and from members. Then what comes next on
the path of a registered type is registered too: a namespace, a type of a
namespace, or a type that the type before it encloses.
-/

namespace ScriptBridge

open NamespaceTree

namespace Host

/-- The type is found under its full name. -/
def IsRegistered (host : Host) (type : TypeRef) : Prop := host.registry.get? (host.fullName type) = some type

instance (host : Host) (type : TypeRef) : Decidable (host.IsRegistered type) := inferInstanceAs (Decidable (_ = _))

/-- One type is declared as nested directly in another. -/
structure Encloses (host : Host) (outer nested : TypeRef) : Prop where
  space : (host.definition nested).space = (host.definition outer).space
  enclosing : (host.definition nested).enclosing =
    (host.definition outer).enclosing ++ [(host.definition outer).name]

/-- The registered types of a host can be told apart by their dotted paths. -/
structure Unambiguous (host : Host) : Prop where
  keyed : ∀ name type, host.registry.get? name = some type → host.fullName type = name
  /-- No name is empty or has a dot or a plus sign in it. -/
  named : ∀ type, host.IsRegistered type →
    ∀ name ∈ host.system.segments type, Text.IsName name ∧ '+' ∉ name.toList
  /-- A namespace is written as its names with dots between them. -/
  spelled : ∀ type, host.IsRegistered type →
    dotted (Text.segments (host.definition type).space) = (host.definition type).space
  /-- No other type has the path of a registered type. -/
  distinct : ∀ type, host.IsRegistered type →
    ∀ other, host.system.segments other = host.system.segments type → other = type
  /-- No type has the path of a namespace of a registered type. -/
  spaces : ∀ type ∈ host.registry.types, ∀ other,
    ¬host.system.segments other <+: Text.segments (host.definition type).space
  enclosed : ∀ nested, host.IsRegistered nested → (host.definition nested).enclosing ≠ [] →
    ∃ outer, host.IsRegistered outer ∧ host.Encloses outer nested
  apart : host.NamesApart
  /-- No static member of a type or of its bases has the name of a type that is nested in the type. -/
  members : ∀ outer nested, host.IsRegistered outer → host.IsRegistered nested → host.Encloses outer nested →
    ∀ ancestor ∈ host.system.lineage outer, ∀ member : CatalogMember, member.DeclaredBy host.system ancestor →
      member.isStatic = true → member.name ≠ (host.definition nested).name
  /-- Nothing else in the tables of the bases has that name either. -/
  bases : ∀ outer nested, host.IsRegistered outer → host.IsRegistered nested → host.Encloses outer nested →
    ∀ ancestor ∈ host.system.ancestors outer, ¬host.Enters ancestor (host.definition nested).name ∧
      ¬host.Leads (fun _ => True) (host.system.segments ancestor ++ [(host.definition nested).name])

end Host

/-- The full name of a type that is not nested is its dotted path. -/
theorem TypeDef.fullName_of_top {definition : TypeDef} (top : definition.enclosing = []) :
    definition.fullName = extendPath definition.space definition.name := by
  rw [fullName, top, extendPath]
  split <;> simp

theorem TypeDef.fullName_of_enclosing {outer nested : TypeDef} (space : nested.space = outer.space)
    (enclosing : nested.enclosing = outer.enclosing ++ [outer.name]) :
    nested.fullName = outer.fullName ++ "+" ++ nested.name := by
  rw [fullName, fullName, space, enclosing, List.map_append, String.join_append]
  simp [String.join, String.append_assoc]

theorem TypeDef.plus_mem_fullName {definition : TypeDef} (nested : definition.enclosing ≠ []) :
    '+' ∈ definition.fullName.toList := by
  rcases List.eq_nil_or_concat definition.enclosing with none | ⟨outer, last, same⟩
  · exact absurd none nested
  · rw [fullName, same]
    simp [String.join]

theorem NamespaceTree.not_mem_dotted {character : Char} (apart : character ≠ '.') {path : List String}
    (absent : ∀ name ∈ path, character ∉ name.toList) : character ∉ (dotted path).toList := by
  induction path using List.reverseRecOn with
  | nil => exact List.not_mem_nil
  | append_singleton path name ih =>
      have last := absent name (by simp)
      have others := ih fun other listed => absent other (List.mem_append_left _ listed)
      rw [dotted_concat, extendPath]
      split
      · exact last
      · simp [others, last, apart]

theorem NamespaceTree.dotted_ne_empty {path : List String} (some : path ≠ []) (names : ∀ name ∈ path, Text.IsName name) :
    (dotted path).isEmpty = false := by
  rcases List.eq_nil_or_concat path with none | ⟨front, last, rfl⟩
  · exact absurd none some
  · have nonempty : last.isEmpty = false :=
      Bool.eq_false_iff.mpr fun empty => (names last (by simp)).1 (String.isEmpty_iff.mp empty)
    rw [List.concat_eq_append, dotted_concat, extendPath]
    split
    · exact nonempty
    · simp [← Bool.not_eq_true, String.isEmpty_iff, String.append_eq_empty_iff]

theorem NamespaceTree.dotted_isPrefix (path rest : List String) :
    (dotted path).toList <+: (dotted (path ++ rest)).toList := by
  induction rest using List.reverseRecOn with
  | nil => exact (List.append_nil path).symm ▸ List.prefix_rfl
  | append_singleton rest name ih =>
      rw [← List.append_assoc, dotted_concat, extendPath]
      split
      next empty =>
        rw [String.isEmpty_iff.mp empty] at ih
        rw [List.prefix_nil.mp ih]
        exact List.nil_prefix
      next =>
        rw [String.toList_append, String.toList_append, List.append_assoc]
        exact ih.trans (List.prefix_append _ _)

namespace Host

variable {host : Host} {type outer nested other : TypeRef}

theorem IsRegistered.mem (registered : host.IsRegistered type) : type ∈ host.registry.types :=
  List.mem_map_of_mem (FinMap.mem_entries_of_get? registered)

/-- A registered namespace is one that a registered type is in, or one around it. -/
theorem exists_of_hasNamespace {text : String} (known : host.registry.hasNamespace host.system text = true) :
    ∃ type ∈ host.registry.types, Text.segments text <+: Text.segments (host.definition type).space := by
  rcases List.any_eq_true.mp known with ⟨type, listed, holds⟩
  refine ⟨type, listed, ?_⟩
  rw [definition]
  rcases Bool.or_eq_true_iff.mp holds with same | within
  · rcases eq_of_beq same with rfl
    exact List.prefix_rfl
  · rcases List.isPrefixOf_iff_prefix.mp within with ⟨rest, split⟩
    have spelled : (host.system.definition type).space = text ++ "." ++ String.ofList rest := by
      rw [← String.toList_inj, ← split]
      simp [String.toList_append]
    rw [spelled, Text.segments_append]
    exact List.prefix_append _ _

theorem Encloses.segments_eq (encloses : host.Encloses outer nested) :
    host.system.segments nested = host.system.segments outer ++ [(host.definition nested).name] := by
  have space := encloses.space
  have enclosing := encloses.enclosing
  rw [definition, definition] at space enclosing
  simp only [TypeSystem.segments, space, enclosing, List.append_assoc, definition]

theorem Encloses.fullName_eq (encloses : host.Encloses outer nested) :
    host.fullName nested = host.fullName outer ++ "+" ++ (host.definition nested).name :=
  TypeDef.fullName_of_enclosing encloses.space encloses.enclosing

namespace Unambiguous

variable (unambiguous : host.Unambiguous)

include unambiguous

theorem isName (registered : host.IsRegistered type) : ∀ name ∈ host.system.segments type, Text.IsName name :=
  fun name listed => (unambiguous.named type registered name listed).1

theorem fullName_of_top (registered : host.IsRegistered type) (top : (host.definition type).enclosing = []) :
    host.fullName type = dotted (host.system.segments type) := by
  have spelled := unambiguous.spelled type registered
  have segments : host.system.segments type =
      Text.segments (host.definition type).space ++ [(host.definition type).name] := by
    rw [definition] at top ⊢
    simp [TypeSystem.segments, top]
  rw [segments, dotted_concat, spelled]
  exact TypeDef.fullName_of_top top

/-- What is registered under the dotted name of a path has this path. -/
theorem segments_of_get? {path : List String}
    (names : ∀ name ∈ path, Text.IsName name ∧ '+' ∉ name.toList)
    (found : host.registry.get? (dotted path) = some type) :
    host.IsRegistered type ∧ host.system.segments type = path := by
  have named := unambiguous.keyed _ type found
  have registered : host.IsRegistered type := by rw [IsRegistered, named, found]
  have top : (host.definition type).enclosing = [] := by
    by_contra nested
    refine not_mem_dotted (by decide) (fun name listed => (names name listed).2) ?_
    rw [← named]
    exact TypeDef.plus_mem_fullName nested
  refine ⟨registered, ?_⟩
  rw [unambiguous.fullName_of_top registered top] at named
  have same := congrArg Text.segments named
  rwa [segments_dotted (unambiguous.isName registered), segments_dotted fun name listed => (names name listed).1]
    at same

/-- The namespaces on the path of a registered type are namespaces of registered types. -/
theorem hasNamespace_of_prefix (registered : host.IsRegistered type) {path : List String} (some : path ≠ [])
    (within : path <+: Text.segments (host.definition type).space) :
    host.registry.hasNamespace host.system (dotted path) = true := by
  rcases within with ⟨rest, split⟩
  have spelled := unambiguous.spelled type registered
  rw [← split] at spelled
  have names : ∀ name ∈ path, Text.IsName name := fun name listed =>
    Text.isName_of_mem_segments (split ▸ List.mem_append_left rest listed)
  refine List.any_eq_true.mpr ⟨type, registered.mem, ?_⟩
  rw [definition] at spelled
  simp only [Bool.or_eq_true, beq_iff_eq]
  rw [← spelled]
  cases rest with
  | nil => exact .inl (by rw [List.append_nil])
  | cons name rest =>
      right
      rw [List.append_cons]
      refine List.isPrefixOf_iff_prefix.mpr (List.IsPrefix.trans ?_ (dotted_isPrefix (path ++ [name]) rest))
      rw [dotted_concat, extendPath, dotted_ne_empty some names, if_neg Bool.false_ne_true]
      simp [String.toList_append]

/-- Each type on the path of a registered type is registered. -/
theorem exists_encloser (registered : host.IsRegistered type) {inner rest : List String} (some : inner ≠ [])
    (split : inner ++ rest = (host.definition type).enclosing ++ [(host.definition type).name]) :
    ∃ outer, host.IsRegistered outer ∧ (host.definition outer).space = (host.definition type).space ∧
      (host.definition outer).enclosing ++ [(host.definition outer).name] = inner := by
  induction rest using List.reverseRecOn generalizing type with
  | nil => exact ⟨type, registered, rfl, by rw [← split, List.append_nil]⟩
  | append_singleton rest last ih =>
      rw [← List.append_assoc] at split
      have around := List.append_inj_left' split rfl
      have nested : (host.definition type).enclosing ≠ [] := by
        rw [← around]
        exact fun none => some (List.append_eq_nil_iff.mp none).1
      rcases unambiguous.enclosed type registered nested with ⟨outer, outerRegistered, encloses⟩
      rcases ih outerRegistered (around.trans encloses.enclosing) with ⟨found, foundRegistered, space, same⟩
      exact ⟨found, foundRegistered, space.trans encloses.space.symm, same⟩

end Unambiguous

/-- What may come next on the path of a type. -/
inductive Ahead (host : Host) (type : TypeRef) (way : List String) (name : String) : Prop
  /-- A namespace of the type. -/
  | space (within : way ++ [name] <+: Text.segments (host.definition type).space)
  /-- A type of the namespace. -/
  | top {next : TypeRef} (registered : host.IsRegistered next) (all : way = Text.segments (host.definition type).space)
      (full : host.fullName next = dotted (way ++ [name]))
  /-- A type that is nested in the type before it. -/
  | nested {outer next : TypeRef} (outerRegistered : host.IsRegistered outer) (registered : host.IsRegistered next)
      (encloses : host.Encloses outer next) (before : host.system.segments outer = way)
      (last : (host.definition next).name = name)

theorem segments_eq_of_space (same : (host.definition other).space = (host.definition type).space) :
    host.system.segments other = Text.segments (host.definition type).space ++
      ((host.definition other).enclosing ++ [(host.definition other).name]) := by
  rw [← same, ← List.append_assoc]
  rfl

theorem Unambiguous.ahead_top (unambiguous : host.Unambiguous) (registered : host.IsRegistered type)
    {rest : List String} {name : String}
    (split : name :: rest = (host.definition type).enclosing ++ [(host.definition type).name]) :
    host.Ahead type (Text.segments (host.definition type).space) name := by
  have first : [name] ++ rest = (host.definition type).enclosing ++ [(host.definition type).name] := split
  rcases unambiguous.exists_encloser registered (List.cons_ne_nil name []) first with ⟨next, nextRegistered, space, same⟩
  have top : (host.definition next).enclosing = [] := List.append_inj_left' same rfl
  refine .top nextRegistered rfl ?_
  rw [unambiguous.fullName_of_top nextRegistered top, segments_eq_of_space space, same]

theorem Unambiguous.ahead_nested (unambiguous : host.Unambiguous) (registered : host.IsRegistered type)
    {around rest : List String} {name : String} (some : around ≠ [])
    (split : around ++ name :: rest = (host.definition type).enclosing ++ [(host.definition type).name]) :
    host.Ahead type (Text.segments (host.definition type).space ++ around) name := by
  rcases unambiguous.exists_encloser registered some split with ⟨outer, outerRegistered, outerSpace, before⟩
  rw [List.append_cons] at split
  rcases unambiguous.exists_encloser registered (by simp) split with ⟨next, nextRegistered, space, same⟩
  have enclosing := List.append_inj_left' same rfl
  have last := List.append_inj_right' same rfl
  refine .nested outerRegistered nextRegistered ⟨space.trans outerSpace.symm, enclosing.trans before.symm⟩ ?_
    (List.singleton_inj.mp last)
  rw [segments_eq_of_space outerSpace, before]

theorem Unambiguous.ahead (unambiguous : host.Unambiguous) (registered : host.IsRegistered type)
    {way rest : List String} {name : String} (split : way ++ name :: rest = host.system.segments type) :
    host.Ahead type way name := by
  rw [segments_eq_of_space rfl, List.append_eq_append_iff] at split
  rcases split with ⟨left, spaces, same⟩ | ⟨around, rfl, same⟩
  · cases left with
    | nil =>
        rw [List.append_nil] at spaces
        exact spaces ▸ unambiguous.ahead_top registered same
    | cons first more =>
        rcases List.cons.inj same with ⟨rfl, -⟩
        refine .space ⟨more, ?_⟩
        rw [spaces, ← List.append_cons]
  · cases around with
    | nil =>
        rw [List.append_nil]
        exact unambiguous.ahead_top registered same.symm
    | cons first more => exact unambiguous.ahead_nested registered (List.cons_ne_nil _ _) same.symm

end Host

end ScriptBridge
