import ScriptBridge.Proofs.Natives.Legitimate
import ScriptBridge.Proofs.Realms.Tables

/-!
# Receivers in every run

In every run of a realm, the callables of each context stay lawful and its proxies go
by the types of their values. So whatever a script asks for next, native code only ever
sees a legitimate receiver.
-/

namespace ScriptBridge.Realm

open Bridge

/-- A context of the realm made the proxy. -/
def HasMade (realm : Realm) (proxy : Proxy) : Prop :=
  ∃ (place : Nat) (context : Context), realm.contexts[place]? = some context ∧ context.cache.Minted proxy

/--
The action declares regular types only, adds only native code that keeps the type of its
receiver, and hands over lawful callables only.
-/
def Action.IsProper (system : TypeSystem) : Action → Prop
  | .declare definition => definition.primitive? = none ∧ definition.Regular
  | .addNative code => code.KeepsTypes
  | .perform _ (.register callable) => callable.Lawful system
  | _ => True

theorem Action.IsProper.keepsTypes {system : TypeSystem} {action : Action} (proper : action.IsProper system) :
    action.KeepsTypes := by
  cases action with
  | declare definition => exact proper.1
  | addNative code => exact proper
  | _ => trivial

/-- Every action of a run is proper where it happens. -/
def AllProper (realm : Realm) (actions : List Action) : Prop :=
  ∀ earlier action later, actions = earlier ++ action :: later →
    action.IsProper (realm.actAll earlier).system

/-- The types are declared as they should be, and the callables of all contexts are lawful. -/
structure Lawful (realm : Realm) : Prop where
  regular : realm.system.Regular
  contexts : ∀ (place : Nat) (context : Context), realm.contexts[place]? = some context →
    context.Lawful realm.system

theorem regular_core : TypeSystem.core.Regular := by
  refine TypeSystem.regular_of_types fun definition listed => ?_
  have nothing : ∀ definition ∈ TypeSystem.core.types, definition.methods = [] ∧ definition.properties = [] := by
    decide
  rcases nothing definition listed with ⟨noMethods, noProperties⟩
  exact ⟨by simp [noMethods], by simp [noProperties]⟩

theorem lawful_core : core.Lawful where
  regular := regular_core
  contexts := fun _ _ impossible => by simp [core] at impossible

variable {realm : Realm} {action : Action}

theorem Lawful.regular_act (lawful : realm.Lawful) (proper : action.IsProper realm.system) :
    (realm.act action).system.Regular := by
  cases action with
  | declare definition =>
      cases declared : realm.system.declare? definition with
      | none => simpa [act, declare?, declared] using lawful.regular
      | some result =>
          simpa [act, declare?, declared] using TypeSystem.regular_of_declare? lawful.regular proper.2 declared
  | perform target operation =>
      cases found : realm.contexts[target]? with
      | none => simpa [act, perform?, found] using lawful.regular
      | some context => simpa [act_perform found] using lawful.regular
  | _ => exact lawful.regular

theorem Lawful.act (lawful : realm.Lawful) (proper : action.IsProper realm.system) : (realm.act action).Lawful where
  regular := lawful.regular_act proper
  contexts := by
    intro place later present
    rcases context_act action present with
      unchanged | ⟨-, config, -, opened⟩ | ⟨context, operation, found, rfl, performed⟩
    · exact (lawful.contexts place later unchanged).change (precedes_act realm action) rfl rfl
    · rw [opened]
      exact Context.lawful_fresh _ config _
    · rw [act_perform found, performed]
      have registers : ∀ callable, operation = .register callable → callable.Lawful realm.system := by
        rintro callable rfl
        exact proper
      exact @Host.lawful_perform realm.host lawful.regular operation ⟨realm.store, context, []⟩ registers
        (lawful.contexts place context found)

theorem allProper_of_each {actions : List Action} (each : ∀ action ∈ actions, ∀ system, action.IsProper system)
    (realm : Realm) : realm.AllProper actions := by
  rintro earlier action later rfl
  exact each action (List.mem_append_right _ List.mem_cons_self) _

theorem AllProper.isProper {actions : List Action} (proper : core.AllProper (actions ++ [action])) :
    action.IsProper (core.actAll actions).system :=
  proper actions action [] rfl

theorem AllProper.init {actions : List Action} (proper : core.AllProper (actions ++ [action])) :
    core.AllProper actions := by
  intro earlier other later same
  exact proper earlier other (later ++ [action]) (by rw [same]; simp)

theorem AllProper.lawful {actions : List Action} (proper : core.AllProper actions) :
    (core.actAll actions).Lawful := by
  induction actions using List.reverseRecOn with
  | nil => exact lawful_core
  | append_singleton actions action ih =>
      rw [actAll_append, actAll_cons, actAll_nil]
      exact (ih proper.init).act proper.isProper

theorem AllProper.sound {actions : List Action} (proper : core.AllProper actions) :
    (core.actAll actions).Sound := by
  refine sound_core.actAll fun action listed => ?_
  rcases List.append_of_mem listed with ⟨earlier, later, same⟩
  exact (proper earlier action later same).keepsTypes

/-- A type with an instance method. -/
def lamp : TypeDef :=
  (TypeDef.ofClass "Game" "Lamp").addMethods
    [{ MethodDef.named "Switch" (.native 0) with returns := some (.host .boolean) }]

/-- A lamp is handed to a script. -/
def lampHanded : List Action :=
  [.declare lamp, .addNative fun _ invocation => pure (invocation.complete (.boolean true)),
    .openContext .standard, .make (.newObject (.declared 14)), .perform 0 (.push (.object ⟨0⟩))]

end ScriptBridge.Realm
