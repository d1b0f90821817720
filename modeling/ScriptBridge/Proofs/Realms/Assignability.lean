import ScriptBridge.Proofs.Host.Assignability
import ScriptBridge.Proofs.Realms.Tables

/-!
# Assignability in every run

In a realm whose types list only interfaces that were declared before them, assignability
is reflexive and no two types are assignable to each other. Interfaces of interfaces are
not followed, so that it is transitive only if each type lists these itself.
-/

namespace ScriptBridge.Realm

variable {realm : Realm}

/-- The interfaces that a type lists when an action declares it. -/
def Action.listed : Action → List TypeRef
  | .declare definition => definition.interfaces
  | _ => []

/-- Every type that is declared lists only interfaces that are declared already. -/
def BuildsOn : Realm → List Action → Prop
  | _, [] => True
  | realm, action :: rest =>
      (∀ interface ∈ action.listed, interface.rank < 2 * realm.system.types.length) ∧
        (realm.act action).BuildsOn rest

theorem listsEarlier_act (earlier : realm.system.ListsEarlier) {action : Action}
    (known : ∀ interface ∈ action.listed, interface.rank < 2 * realm.system.types.length) :
    (realm.act action).system.ListsEarlier := by
  cases action with
  | declare definition =>
      cases declared : realm.system.declare? definition with
      | none => simpa [act, declare?, declared] using earlier
      | some result =>
          rw [TypeSystem.declare?] at declared
          split at declared
          next =>
            obtain rfl := Option.some.inj declared
            intro index interface listed
            simp only [act, declare?, TypeSystem.declare?, *, dif_pos, Option.map_some, Option.getD_some,
              TypeSystem.definition] at listed
            rcases Nat.lt_trichotomy index realm.system.types.length with before | rfl | after
            · rw [List.getElem?_append_left before] at listed
              exact earlier index interface listed
            · rw [List.getElem?_concat_length] at listed
              exact known interface listed
            · rw [List.getElem?_eq_none (by rw [List.length_append, List.length_singleton]; omega)] at listed
              cases listed
          next => cases declared
  | perform place operation =>
      cases found : realm.contexts[place]? with
      | none => simpa [act, perform?, found] using earlier
      | some context => simpa [act_perform found] using earlier
  | _ => exact earlier

theorem listsEarlier_actAll {actions : List Action} (earlier : realm.system.ListsEarlier)
    (builds : realm.BuildsOn actions) : (realm.actAll actions).system.ListsEarlier := by
  induction actions generalizing realm with
  | nil => exact earlier
  | cons action rest ih => exact ih (listsEarlier_act earlier builds.1) builds.2

theorem listsEarlier_core : core.system.ListsEarlier := by
  intro index interface listed
  rw [TypeSystem.definition] at listed
  cases known : core.system.types[index]? with
  | none =>
      rw [known] at listed
      cases listed
  | some definition =>
      have none : ∀ definition ∈ coreTypes, definition.interfaces = [] := by decide
      rw [known, Option.getD_some, none definition (List.mem_of_getElem? known)] at listed
      cases listed

theorem precedes_actAll (actions : List Action) : realm.system.Precedes (realm.actAll actions).system := by
  induction actions generalizing realm with
  | nil => exact .refl _
  | cons action rest ih => exact (precedes_act realm action).trans ih

/--
Assignability orders the types of every realm whose types list only interfaces that were declared before them: every
type is assignable to itself, and no two types to each other. It is transitive if and only if every type is directly
assignable to everything that each interface that it lists is directly assignable to, and no type descends from an
array type of references but that of objects.
-/
theorem assignability_ordered (actions : List Action) (builds : core.BuildsOn actions) :
    let system := (core.actAll actions).system
    (∀ type, system.isAssignable type type = true) ∧
    (∀ source target, system.isAssignable source target = true → system.isAssignable target source = true →
      source = target) ∧
    (system.Flattened ↔ ∀ source middle target, system.isAssignable source middle = true →
      system.isAssignable middle target = true → system.isAssignable source target = true) := by
  intro system
  have extends_core : TypeSystem.core.Precedes system := @precedes_actAll core actions
  refine ⟨TypeSystem.isAssignable_self, fun source target => ?_, fun flat source middle target => ?_, fun trans => ?_⟩
  · exact TypeSystem.isAssignable_antisymm (listsEarlier_actAll listsEarlier_core builds)
  · exact flat.isAssignable_trans extends_core
  · exact TypeSystem.flattened_of_trans extends_core trans

/-- A class that lists one interface, which lists another one. -/
def wheel : List Action :=
  [ .declare (TypeDef.ofInterface "Game" "Movable"),
    .declare { TypeDef.ofInterface "Game" "Rolling" with interfaces := [.declared 14] },
    .declare { TypeDef.ofClass "Game" "Wheel" with interfaces := [.declared 15] } ]

theorem buildsOn_wheel : core.BuildsOn wheel := by
  refine ⟨by decide, by decide +kernel, by decide +kernel, trivial⟩

/-- The class is kept from where its interface goes, so that its system is not flattened. -/
theorem assignability_ordered_wheel :
    (∀ source target, (core.actAll wheel).system.isAssignable source target = true →
      (core.actAll wheel).system.isAssignable target source = true → source = target) ∧
    ¬ (core.actAll wheel).system.Flattened := by
  rcases assignability_ordered wheel buildsOn_wheel with ⟨-, antisymm, flattened⟩
  refine ⟨antisymm, fun flat => ?_⟩
  have reached := flattened.mp flat (.declared 16) (.declared 15) (.declared 14) (by decide +kernel) (by decide +kernel)
  revert reached
  decide +kernel

/-- A wheel can be stored as rolling, and what is rolling as movable, but a wheel cannot be stored as movable. -/
theorem not_forall_assignability_ordered :
    ¬ ∀ actions : List Action, core.BuildsOn actions →
      let system := (core.actAll actions).system
      (∀ type, system.isAssignable type type = true) ∧
      (∀ source middle target, system.isAssignable source middle = true →
        system.isAssignable middle target = true → system.isAssignable source target = true) ∧
      ∀ source target, system.isAssignable source target = true → system.isAssignable target source = true →
        source = target := by
  intro ordered
  have reached := (ordered wheel buildsOn_wheel).2.1 (.declared 16) (.declared 15) (.declared 14)
    (by decide +kernel) (by decide +kernel)
  revert reached
  decide +kernel

end ScriptBridge.Realm
