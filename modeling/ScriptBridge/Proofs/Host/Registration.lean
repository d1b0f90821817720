import Mathlib.Logic.Relation
import ScriptBridge.Host.Registry
import ScriptBridge.Proofs.Host.Lineage
import ScriptBridge.Proofs.Maps
import ScriptBridge.Proofs.Tables.Declared

/-!
# Registration of nested types

Registering a type goes through the type and everything nested in it, an outer type
before the types in it, and stops at the first name that another type has. The types that
are still to come are a list, in which the types nested in a new type come first. A type
is left alone if it is registered already, whether or not the types nested in it are. So
all of a type is registered only where each type that was registered before is complete
as well, and that is so unless a registration has failed.
-/

namespace ScriptBridge

/-- The inner type is the outer type itself, or nested in it at some depth. -/
def TypeSystem.Encloses (system : TypeSystem) : TypeRef → TypeRef → Prop :=
  Relation.ReflTransGen fun outer inner => inner ∈ (system.definition outer).nested

theorem TypeSystem.rank_lt_of_nested {system : TypeSystem} {outer inner : TypeRef}
    (nested : inner ∈ (system.definition outer).nested) : inner.rank < outer.rank :=
  rank_lt_of_foundation (List.mem_append_right _ nested)

theorem TypeSystem.encloses_of_nested {system : TypeSystem} {outer inner : TypeRef}
    (nested : inner ∈ (system.definition outer).nested) : system.Encloses outer inner :=
  .single nested

namespace Registry

variable {system : TypeSystem} {registry middle later : Registry} {type known : TypeRef} {types : List TypeRef}
  {name : String} {result : Except TypeResolutionError Unit}

/-- What registering something answers, and the registry it leaves. -/
def exec {α : Type} (action : ExceptT TypeResolutionError (StateM Registry) α) (registry : Registry) :
    Except TypeResolutionError α × Registry :=
  (action.run).run registry

theorem exec_bind {α β : Type} (action : ExceptT TypeResolutionError (StateM Registry) α)
    (next : α → ExceptT TypeResolutionError (StateM Registry) β) (registry : Registry) :
    exec (action >>= next) registry =
      match exec action registry with
      | (.ok value, after) => exec (next value) after
      | (.error error, after) => (.error error, after) := by
  simp only [exec, ExceptT.run_bind, StateT.run_bind]
  cases (action.run).run registry with
  | mk result after => cases result <;> rfl

/-- The registry with a type under its full name. -/
def add (system : TypeSystem) (registry : Registry) (type : TypeRef) : Registry :=
  ⟨registry.byName.insert (system.fullName type) type⟩

theorem get?_add (system : TypeSystem) (registry : Registry) (type : TypeRef) (name : String) :
    (registry.add system type).get? name = if name = system.fullName type then some type else registry.get? name :=
  FinMap.get?_insert _ _ _ _

/-- A new type takes no name from another. -/
theorem get?_add_of_get? (vacant : registry.get? (system.fullName type) = none)
    (found : registry.get? name = some known) : (registry.add system type).get? name = some known := by
  rw [get?_add, if_neg, found]
  rintro rfl
  rw [found] at vacant
  cases vacant

/-- How it goes to register the types of a list, each followed by what is nested in it. -/
inductive Registers (system : TypeSystem) :
    List TypeRef → Registry → Except TypeResolutionError Unit → Registry → Prop
  | done (registry : Registry) : Registers system [] registry (.ok ()) registry
  | known {type : TypeRef} {types : List TypeRef} {registry later : Registry}
      {result : Except TypeResolutionError Unit} (found : registry.get? (system.fullName type) = some type)
      (rest : Registers system types registry result later) : Registers system (type :: types) registry result later
  | clash {type other : TypeRef} (types : List TypeRef) {registry : Registry}
      (found : registry.get? (system.fullName type) = some other) (different : other ≠ type) :
      Registers system (type :: types) registry (.error (.duplicateType (system.fullName type))) registry
  | new {type : TypeRef} {types : List TypeRef} {registry later : Registry} {result : Except TypeResolutionError Unit}
      (vacant : registry.get? (system.fullName type) = none)
      (rest : Registers system ((system.definition type).nested ++ types) (registry.add system type) result later) :
      Registers system (type :: types) registry result later

theorem exec_registerWithin_succ (system : TypeSystem) (depth : Nat) (type : TypeRef) (registry : Registry) :
    exec (registerWithin system (depth + 1) type) registry =
      match registry.get? (system.fullName type) with
      | some existing =>
          (if existing = type then .ok () else .error (.duplicateType (system.fullName type)), registry)
      | none => exec ((system.definition type).nested.forM (registerWithin system depth)) (registry.add system type) := by
  rw [registerWithin, exec_bind]
  change (match (Except.ok registry, registry) with
    | (.ok value, after) => exec _ after
    | (.error error, after) => (.error error, after)) = _
  dsimp only
  cases registry.get? (system.fullName type) with
  | none => rfl
  | some existing =>
      dsimp only
      by_cases same : existing = type
      · rw [if_neg (not_not_intro same), if_pos same]
        rfl
      · rw [if_pos same, if_neg same]
        rfl

/-- Types that are still to come are registered after those before them, unless one of these has failed. -/
inductive Continues (system : TypeSystem) (others : List TypeRef) (middle : Registry) :
    Except TypeResolutionError Unit → Except TypeResolutionError Unit → Registry → Prop
  | ok {result : Except TypeResolutionError Unit} {later : Registry}
      (rest : Registers system others middle result later) : Continues system others middle (.ok ()) result later
  | error (error : TypeResolutionError) : Continues system others middle (.error error) (.error error) middle

theorem registers_append {depth : Nat} (low : ∀ type ∈ types, type.rank < depth)
    {answer : Except TypeResolutionError Unit} {others : List TypeRef}
    (run : exec (types.forM (registerWithin system depth)) registry = (answer, middle))
    (continues : Continues system others middle answer result later) :
    Registers system (types ++ others) registry result later := by
  -- What is nested in a type has a lower rank, so it is registered at a lower depth than the rest of the list.
  induction depth generalizing types registry middle answer others with
  | zero =>
      cases types with
      | nil =>
          obtain ⟨rfl, rfl⟩ := Prod.mk.inj run
          cases continues with
          | ok rest => exact rest
      | cons type types => exact absurd (low type List.mem_cons_self) (Nat.not_lt_zero _)
  | succ depth deeper =>
      induction types generalizing registry with
      | nil =>
          obtain ⟨rfl, rfl⟩ := Prod.mk.inj run
          cases continues with
          | ok rest => exact rest
      | cons type types ih =>
          have further := fun {registry} => @ih registry fun other listed => low other (List.mem_cons_of_mem _ listed)
          have lower : ∀ inner ∈ (system.definition type).nested, inner.rank < depth := fun inner nested =>
            Nat.lt_of_lt_of_le (TypeSystem.rank_lt_of_nested nested) (Nat.lt_succ_iff.mp (low type List.mem_cons_self))
          rw [List.forM_eq_forM, List.forM_cons, exec_bind, exec_registerWithin_succ] at run
          cases found : registry.get? (system.fullName type) with
          | some existing =>
              rw [found] at run
              by_cases same : existing = type
              · subst same
                simp only [if_true] at run
                exact .known found (further run)
              · simp only [if_neg same] at run
                obtain ⟨rfl, rfl⟩ := Prod.mk.inj run
                cases continues with
                | error => exact .clash _ found same
          | none =>
              rw [found] at run
              refine .new found ?_
              cases inner : exec ((system.definition type).nested.forM (registerWithin system depth))
                  (registry.add system type) with
              | mk first reached =>
                  dsimp only at run
                  rw [inner] at run
                  cases first with
                  | ok => exact deeper lower inner (.ok (further run))
                  | error error =>
                      obtain ⟨rfl, rfl⟩ := Prod.mk.inj run
                      cases continues with
                      | error => exact deeper lower inner (.error error)

/-- Registering a type goes as it goes for a list of one type. -/
theorem registers_register (system : TypeSystem) (type : TypeRef) (registry : Registry) :
    Registers system [type] registry (exec (register system type) registry).1
      (exec (register system type) registry).2 := by
  cases run : exec (register system type) registry with
  | mk answer after =>
      have alone : exec ([type].forM (registerWithin system (type.rank + 1))) registry = (answer, after) := by
        rw [register] at run
        rw [List.forM_eq_forM, List.forM_cons, exec_bind, run]
        cases answer <;> rfl
      have low : ∀ other ∈ [type], other.rank < type.rank + 1 := by simp
      have continues : Continues system [] after answer answer after := by
        cases answer with
        | error error => exact .error error
        | ok => exact .ok (.done after)
      simpa using registers_append low alone continues

namespace Registers

/-- What is found by a name stays found by it. -/
theorem get?_of_get? (registers : Registers system types registry result later)
    (found : registry.get? name = some known) : later.get? name = some known := by
  induction registers with
  | done => exact found
  | known _ _ ih => exact ih found
  | clash => exact found
  | new vacant _ ih => exact ih (get?_add_of_get? vacant found)

/-- What is found by a new name is one of the types to register or nested in one of them, and has that name. -/
theorem get?_or_enclosed (registers : Registers system types registry result later)
    (found : later.get? name = some known) :
    registry.get? name = some known ∨
      name = system.fullName known ∧ ∃ type ∈ types, system.Encloses type known := by
  induction registers with
  | done => exact .inl found
  | known _ _ ih =>
      refine (ih found).imp_right fun ⟨own, type, listed, encloses⟩ => ?_
      exact ⟨own, type, List.mem_cons_of_mem _ listed, encloses⟩
  | clash => exact .inl found
  | @new type types registry later result vacant rest ih =>
      rcases ih found with before | ⟨own, other, listed, encloses⟩
      · rw [get?_add] at before
        split at before
        next same =>
          obtain rfl := Option.some.inj before
          exact .inr ⟨same, type, List.mem_cons_self, .refl⟩
        next => exact .inl before
      · rcases List.mem_append.mp listed with nested | further
        · exact .inr ⟨own, type, List.mem_cons_self, .head nested encloses⟩
        · exact .inr ⟨own, other, List.mem_cons_of_mem _ further, encloses⟩

/-- A failure names a type whose name another type has. -/
theorem exists_clash_of_error {error : TypeResolutionError}
    (registers : Registers system types registry (.error error) later) :
    ∃ clash other, (∃ type ∈ types, system.Encloses type clash) ∧ other ≠ clash ∧
      later.get? (system.fullName clash) = some other ∧ error = .duplicateType (system.fullName clash) := by
  generalize answer : (Except.error error : Except TypeResolutionError Unit) = result at registers
  induction registers with
  | done => cases answer
  | known _ _ ih =>
      rcases ih answer with ⟨clash, other, ⟨type, listed, encloses⟩, rest⟩
      exact ⟨clash, other, ⟨type, List.mem_cons_of_mem _ listed, encloses⟩, rest⟩
  | @clash type other types registry found different =>
      exact ⟨type, other, ⟨type, List.mem_cons_self, .refl⟩, different, found, Except.error.inj answer⟩
  | @new type types registry later result vacant rest ih =>
      rcases ih answer with ⟨clash, other, ⟨inner, listed, encloses⟩, named⟩
      rcases List.mem_append.mp listed with nested | further
      · exact ⟨clash, other, ⟨type, List.mem_cons_self, .head nested encloses⟩, named⟩
      · exact ⟨clash, other, ⟨inner, List.mem_cons_of_mem _ further, encloses⟩, named⟩

/-- If no type fails, all of the list are registered. -/
theorem get?_of_ok (registers : Registers system types registry (.ok ()) later) (listed : type ∈ types) :
    later.get? (system.fullName type) = some type := by
  generalize answer : (Except.ok () : Except TypeResolutionError Unit) = result at registers
  induction registers with
  | done => cases listed
  | known found rest ih =>
      rcases List.mem_cons.mp listed with rfl | further
      · exact rest.get?_of_get? found
      · exact ih further answer
  | clash => cases answer
  | @new other types registry later result vacant rest ih =>
      rcases List.mem_cons.mp listed with rfl | further
      · refine rest.get?_of_get? ?_
        rw [get?_add, if_pos rfl]
      · exact ih (List.mem_append_right _ further) answer

end Registers

/-- What is nested in a registered type is registered too, but for types that are still to come. -/
def WholeBut (system : TypeSystem) (types : List TypeRef) (registry : Registry) : Prop :=
  ∀ name outer, registry.get? name = some outer → ∀ inner ∈ (system.definition outer).nested,
    registry.get? (system.fullName inner) = some inner ∨ inner ∈ types

/-- What is nested in a registered type is registered too. -/
abbrev Whole (system : TypeSystem) (registry : Registry) : Prop := registry.WholeBut system []

theorem Whole.but (whole : registry.Whole system) (types : List TypeRef) : registry.WholeBut system types :=
  fun name outer found inner nested => .inl ((whole name outer found inner nested).resolve_right List.not_mem_nil)

/-- Where nothing was missing before, nothing is missing after types were registered without a failure. -/
theorem Registers.whole (registers : Registers system types registry (.ok ()) later)
    (whole : registry.WholeBut system types) : later.Whole system := by
  generalize answer : (Except.ok () : Except TypeResolutionError Unit) = result at registers
  induction registers with
  | done => exact whole
  | known found _ ih =>
      refine ih (fun name outer present inner nested => ?_) answer
      rcases whole name outer present inner nested with there | listed
      · exact .inl there
      · rcases List.mem_cons.mp listed with rfl | further
        · exact .inl found
        · exact .inr further
  | clash => cases answer
  | @new type types registry later result vacant rest ih =>
      refine ih (fun name outer present inner nested => ?_) answer
      rw [get?_add] at present
      split at present
      next =>
        obtain rfl := Option.some.inj present
        exact .inr (List.mem_append_left _ nested)
      next =>
        rcases whole name outer present inner nested with there | listed
        · exact .inl (get?_add_of_get? vacant there)
        · rcases List.mem_cons.mp listed with rfl | further
          · exact .inl (by rw [get?_add, if_pos rfl])
          · exact .inr (List.mem_append_right _ further)

/-- Where nothing is missing, a registered type is registered with everything in it. -/
theorem Whole.get?_of_encloses (whole : registry.Whole system) {inner : TypeRef}
    (registered : registry.get? (system.fullName type) = some type) (encloses : system.Encloses type inner) :
    registry.get? (system.fullName inner) = some inner := by
  induction encloses with
  | refl => exact registered
  | tail _ nested found => exact (whole _ _ found _ nested).resolve_right List.not_mem_nil

/-- The registries that are reached from the core types by registrations of which none fails. -/
inductive Clean (system : TypeSystem) : Registry → Prop
  | core : Clean system .core
  | register {registry later : Registry} (clean : Clean system registry) (type : TypeRef)
      (run : exec (register system type) registry = (.ok (), later)) : Clean system later

/-- Nothing is nested in a core type. -/
theorem whole_core (precedes : TypeSystem.core.Precedes system) : core.Whole system := by
  intro name outer found inner nested
  have entries : ∀ entry ∈ core.byName.entries, ∃ index < TypeRef.coreCount, entry.2 = .declared index := by
    decide +kernel
  have flat : ∀ index < TypeRef.coreCount, (coreTypes[index]?.getD default).nested = [] := by decide
  rcases entries _ (FinMap.mem_entries_of_get? found) with ⟨index, isCore, rfl⟩
  rcases precedes with ⟨more, extended⟩
  rw [TypeSystem.definition, ← extended, List.getElem?_append_left isCore] at nested
  exact absurd (flat index isCore ▸ nested) List.not_mem_nil

/-- Unless a registration fails, nothing is missing. -/
theorem Clean.whole (precedes : TypeSystem.core.Precedes system) (clean : Clean system registry) :
    registry.Whole system := by
  induction clean with
  | core => exact whole_core precedes
  | @register registry later clean type run ih =>
      have registers := registers_register system type registry
      rw [run] at registers
      exact registers.whole (ih.but [type])

/-- No name of a type or of what is nested in it is taken, or wanted twice. -/
def Clear (system : TypeSystem) (registry : Registry) (type : TypeRef) : Prop :=
  ∀ inner, system.Encloses type inner → ∀ other,
    (registry.get? (system.fullName inner) = some other ∨
      system.Encloses type other ∧ system.fullName other = system.fullName inner) → other = inner

/-- Where no name is taken, registering does not fail. -/
theorem Registers.ok_of_clear (registers : Registers system [type] registry result later)
    (clear : registry.Clear system type) : result = .ok () := by
  cases result with
  | ok => rfl
  | error error =>
      rcases registers.exists_clash_of_error with ⟨clash, other, ⟨outer, listed, encloses⟩, different, found, -⟩
      obtain rfl := List.mem_singleton.mp listed
      refine absurd (clear clash encloses other ?_) different
      rcases registers.get?_or_enclosed found with before | ⟨own, outer, listed, enclosesToo⟩
      · exact .inl before
      · obtain rfl := List.mem_singleton.mp listed
        exact .inr ⟨enclosesToo, own.symm⟩

/-- Where all of a type was registered, each of its names was free or its own. -/
theorem Registers.clear (registers : Registers system [type] registry result later)
    (all : ∀ inner, system.Encloses type inner → later.get? (system.fullName inner) = some inner) :
    registry.Clear system type := by
  rintro inner encloses other (before | ⟨enclosesToo, same⟩)
  · exact Option.some.inj ((registers.get?_of_get? before).symm.trans (all inner encloses))
  · exact Option.some.inj ((same ▸ all other enclosesToo).symm.trans (all inner encloses))

end Registry

end ScriptBridge
