import ScriptBridge.Proofs.Namespaces.Naming
import ScriptBridge.Proofs.Tables.Accounting

/-!
# Names of declared types

Whether a host is unambiguous is a question of its declared types: array types and
references to types that are not declared have names that declared types do not have.
-/

namespace ScriptBridge

open NamespaceTree

/-- Whether nothing of a type is entered into its table or shown at its class. -/
def TypeDef.isMemberless (definition : TypeDef) : Bool :=
  definition.fields.isEmpty && definition.methods.isEmpty && definition.events.isEmpty &&
    definition.enumMembers.isEmpty

namespace TypeSystem

variable {system : TypeSystem} {name : String}

theorem space_mem (system : TypeSystem) (type : TypeRef) :
    (system.definition type).space ∈ "" :: system.types.map TypeDef.space := by
  induction type with
  | declared index =>
      rw [definition]
      cases known : system.types[index]? with
      | none => exact List.mem_cons_self
      | some definition => exact List.mem_cons_of_mem _ (List.mem_map_of_mem (List.mem_of_getElem? known))
  | array element ih => exact ih

/-- A name that no namespace of a declared type has is in no namespace. -/
theorem not_mem_space (absent : ∀ definition ∈ system.types, name ∉ Text.segments definition.space)
    (type : TypeRef) : name ∉ Text.segments (system.definition type).space := by
  rcases List.mem_cons.mp (system.space_mem type) with none | some
  · rw [none]
    exact List.not_mem_nil
  · rcases List.mem_map.mp some with ⟨definition, present, same⟩
    rw [← same]
    exact absent definition present

/-- A type with a name as array types do not have it is declared. -/
theorem exists_declared {type : TypeRef} (named : (system.definition type).name ≠ "")
    (plain : ']' ∉ (system.definition type).name.toList) : ∃ index < system.types.length, type = .declared index := by
  cases type with
  | declared index =>
      by_cases bound : index < system.types.length
      · exact ⟨index, bound, rfl⟩
      · rw [definition, List.getElem?_eq_none (by omega)] at named
        exact absurd rfl named
  | array element => exact absurd plain (by simp [definition, TypeDef.named])

/-- Only declared types have a name on their paths that is neither in a namespace nor that of an array type. -/
theorem declared_of_mem_segments (named : name ≠ "") (plain : ']' ∉ name.toList)
    (absent : ∀ definition ∈ system.types, name ∉ Text.segments definition.space) {type : TypeRef}
    (listed : name ∈ system.segments type) : ∃ index < system.types.length, type = .declared index := by
  cases type with
  | declared index =>
      by_cases bound : index < system.types.length
      · exact ⟨index, bound, rfl⟩
      · rw [segments, definition, List.getElem?_eq_none (by omega)] at listed
        exact absurd (List.mem_singleton.mp listed) named
  | array element =>
      rcases List.mem_append.mp listed with inner | last
      · rcases List.mem_append.mp inner with space | impossible
        · exact absurd space (not_mem_space absent (.array element))
        · cases impossible
      · have same := List.mem_singleton.mp last
        exact absurd plain (by simp [same, definition, TypeDef.named])

theorem name_mem_segments (system : TypeSystem) (type : TypeRef) :
    (system.definition type).name ∈ system.segments type := by
  simp [segments]

theorem definition_mem {index : Nat} (bound : index < system.types.length) :
    system.definition (.declared index) ∈ system.types := by
  rw [definition, List.getElem?_eq_getElem bound]
  exact List.getElem_mem bound

/-- Of the types with the path of a declared type, it is enough to look at those that are declared. -/
theorem eq_of_segments_eq {type other : TypeRef} (named : (system.definition type).name ≠ "")
    (plain : ']' ∉ (system.definition type).name.toList)
    (declared : ∀ index < system.types.length,
      system.segments (.declared index) = system.segments type → .declared index = type)
    (same : system.segments other = system.segments type) : other = type := by
  have last : (system.definition other).name = (system.definition type).name :=
    List.append_inj_right' same rfl |> List.singleton_inj.mp
  rw [← last] at named plain
  rcases exists_declared named plain with ⟨index, bound, rfl⟩
  exact declared index bound same

/-- No type has the path of a namespace, if no declared type has the name of a part of it. -/
theorem not_prefix_segments {space : String} (plain : ∀ name ∈ Text.segments space, ']' ∉ name.toList)
    (absent : ∀ definition ∈ system.types, definition.name ∉ Text.segments space) (type : TypeRef) :
    ¬system.segments type <+: Text.segments space := by
  intro within
  have listed : (system.definition type).name ∈ Text.segments space := within.subset (system.name_mem_segments type)
  rcases exists_declared (Text.isName_of_mem_segments listed).1 (plain _ listed) with ⟨index, bound, rfl⟩
  exact absent _ (definition_mem bound) listed

/-- If no declared type has members, no type has. -/
theorem isMemberless_definition (memberless : system.types.all TypeDef.isMemberless = true) (type : TypeRef) :
    (system.definition type).isMemberless = true := by
  cases type with
  | array element => rfl
  | declared index =>
      rw [definition]
      cases known : system.types[index]? with
      | none => rfl
      | some definition => exact List.all_eq_true.mp memberless definition (List.mem_of_getElem? known)

/-- Then the members of a catalog are extension methods, which are no static members. -/
theorem isStatic_eq_false_of_memberless (memberless : system.types.all TypeDef.isMemberless = true) {type : TypeRef}
    {member : CatalogMember} (declared : member.DeclaredBy system type) : member.isStatic = false := by
  have none := isMemberless_definition memberless type
  simp only [TypeDef.isMemberless, Bool.and_eq_true, List.isEmpty_iff] at none
  rcases none with ⟨⟨⟨noFields, noMethods⟩, noEvents⟩, -⟩
  rw [CatalogMember.DeclaredBy] at declared
  split at declared
  · rcases declared with ⟨-, listed, -⟩
    rw [fields, noFields] at listed
    cases listed
  · rcases declared with ⟨listed, -⟩
    rw [methods, noMethods] at listed
    cases listed
  · rcases declared with ⟨-, listed, -⟩
    rw [noEvents] at listed
    cases listed
  next =>
    rcases declared with ⟨-, groups⟩
    rcases List.exists_mem_of_ne_nil _ groups.nonempty with ⟨method, present⟩
    rcases groups.offered method present with ⟨own, -⟩ | ⟨notStatic, -⟩
    · rw [methods, noMethods] at own
      cases own
    · exact notStatic

end TypeSystem

/-- A name that is in no namespace leads nowhere from a path from where it leads to no declared type. -/
theorem Host.not_leads {host : Host} {path : List String} {name : String} (isName : Text.IsName name)
    (plain : ']' ∉ name.toList)
    (absent : ∀ definition ∈ host.system.types, name ∉ Text.segments definition.space)
    (noType : ∀ index < host.system.types.length, ¬path ++ [name] <+: host.system.segments (.declared index)) :
    ¬host.Leads (fun _ => True) (path ++ [name]) := by
  intro leads
  generalize same : path ++ [name] = whole at leads
  cases leads with
  | root => simp at same
  | @towards type _ _ onPath =>
      have listed : name ∈ host.system.segments type := onPath.subset (by simp [← same])
      rcases TypeSystem.declared_of_mem_segments isName.1 plain absent listed with ⟨index, bound, rfl⟩
      exact noType index bound (same ▸ onPath)
  | space known =>
      rcases Host.exists_of_hasNamespace known with ⟨type, -, within⟩
      rw [← same, dotted_concat, segments_extendPath _ isName] at within
      exact TypeSystem.not_mem_space absent type (within.subset (by simp))

/-- The names that binding a type of some declaration can enter into its table. -/
def TypeDef.enteredNames (definition : TypeDef) : List String :=
  definition.fields.flatMap (fun field => [field.name, "&" ++ field.name]) ++ definition.enumMembers.map Prod.fst

/-- A name that is entered is that of the marker or of the cast, or comes from the declaration of a type. -/
theorem Host.mem_enteredNames {host : Host} {type : TypeRef} {name : String} (enters : host.Enters type name) :
    name ∈ "UnderlyingSystemType" :: "__CastFrom" :: (host.definition type).enteredNames := by
  cases enters with
  | @constant access extensions constant listed =>
      refine List.mem_cons_of_mem _ (List.mem_cons_of_mem _ (List.mem_append_left _ ?_))
      have taken : constant ∈ Catalog.scriptFields host.system type access := (List.mem_filter.mp listed).1
      rcases List.mem_map.mp taken with ⟨field, walked, rfl⟩
      rcases List.mem_map.mp (List.mem_filter.mp walked).1 with ⟨declared, present, rfl⟩
      refine List.mem_flatMap.mpr ⟨declared, present, ?_⟩
      dsimp only
      split <;> simp
  | marker => exact List.mem_cons_self
  | member listed =>
      refine List.mem_cons_of_mem _ (List.mem_cons_of_mem _ (List.mem_append_right _ ?_))
      exact List.mem_map_of_mem listed
  | cast => exact List.mem_cons_of_mem _ List.mem_cons_self

/-- What is entered into tables is apart from types whose paths have none of the names that can be entered. -/
theorem Host.namesApart_of_unused {host : Host}
    (unused : ∀ name ∈ "UnderlyingSystemType" :: "__CastFrom" :: host.system.types.flatMap TypeDef.enteredNames,
      (Text.IsName name ∧ ']' ∉ name.toList) ∧
        (∀ definition ∈ host.system.types, name ∉ Text.segments definition.space) ∧
        ∀ index < host.system.types.length, name ∉ host.system.segments (.declared index)) : host.NamesApart := by
  intro type name enters
  have listed : name ∈ "UnderlyingSystemType" :: "__CastFrom" :: host.system.types.flatMap TypeDef.enteredNames := by
    have entered := Host.mem_enteredNames enters
    simp only [List.mem_cons] at entered ⊢
    refine entered.imp_right (Or.imp_right fun declared => ?_)
    cases type with
    | array element => exact absurd declared List.not_mem_nil
    | declared index =>
        by_cases bound : index < host.system.types.length
        · exact List.mem_flatMap.mpr ⟨_, TypeSystem.definition_mem bound, declared⟩
        · rw [Host.definition, TypeSystem.definition, List.getElem?_eq_none (Nat.le_of_not_lt bound)] at declared
          exact absurd declared List.not_mem_nil
  rcases unused name listed with ⟨⟨isName, plain⟩, absent, noType⟩
  exact Host.not_leads isName plain absent fun index bound onPath => noType index bound (onPath.subset (by simp))

section Memberless

variable {host : Host} (memberless : host.system.types.all TypeDef.isMemberless = true)

include memberless

/-- A type without members enters only its marker and the cast to it. -/
theorem Host.enters_of_memberless {type : TypeRef} {name : String} (enters : host.Enters type name) :
    name ∈ ["UnderlyingSystemType", "__CastFrom"] := by
  have none := TypeSystem.isMemberless_definition memberless type
  simp only [TypeDef.isMemberless, Bool.and_eq_true, List.isEmpty_iff] at none
  have entered := Host.mem_enteredNames enters
  rw [definition, TypeDef.enteredNames, none.1.1.1, none.2] at entered
  exact entered

/-- Without members, what is entered into tables is apart from types whose paths have none of two names. -/
theorem Host.namesApart_of_memberless
    (unused : ∀ name ∈ ["UnderlyingSystemType", "__CastFrom"], ∀ index < host.system.types.length,
      name ∉ host.system.segments (.declared index))
    (absent : ∀ name ∈ ["UnderlyingSystemType", "__CastFrom"],
      ∀ definition ∈ host.system.types, name ∉ Text.segments definition.space) : host.NamesApart := by
  intro type name enters
  have reserved := Host.enters_of_memberless memberless enters
  have proper : ∀ name ∈ ["UnderlyingSystemType", "__CastFrom"], Text.IsName name ∧ ']' ∉ name.toList := by decide
  refine Host.not_leads (proper name reserved).1 (proper name reserved).2 (absent name reserved) ?_
  exact fun index bound onPath => unused name reserved index bound (onPath.subset (by simp))

end Memberless

end ScriptBridge
