import Mathlib.Data.List.Forall2
import ScriptBridge.Context.Overloads

/-!
# What a choice depends on

Which candidate a call goes to depends on how well its arguments fit, and on nothing
else about them. Contexts in which they fit alike choose the same candidate.
-/

namespace ScriptBridge.Context

variable {system : TypeSystem} {context other : Context}

/-- The values fit every type as well in one context as in the other. -/
def FitAlike (system : TypeSystem) (context other : Context) (value twin : ScriptValue) : Prop :=
  ∀ type, other.compatibility system twin type = context.compatibility system value type

theorem variadicTiers?_congr {inputs twins : List ScriptValue}
    (alike : List.Forall₂ (FitAlike system context other) inputs twins) (type : TypeRef) :
    other.variadicTiers? system type twins = context.variadicTiers? system type inputs := by
  have elements (element : TypeRef) : (twins.all fun twin => other.fits system twin element) =
      inputs.all fun input => context.fits system input element := by
    induction alike with
    | nil => rfl
    | cons first _ ih => rw [List.all_cons, List.all_cons, ih, Context.fits, Context.fits, first element]
  have counts : (twins.map fun _ => Tier.variadic) = inputs.map fun _ => Tier.variadic := by
    rw [List.map_const', List.map_const', alike.length_eq]
  simp only [variadicTiers?]
  cases alike with
  | nil => rfl
  | cons first rest =>
      cases rest with
      | nil => simp only [first type, elements, List.map_cons, List.map_nil, List.isEmpty_cons]
      | cons second others => simp only [elements, counts, List.isEmpty_cons]

theorem tiers?_congr {inputs twins : List ScriptValue}
    (alike : List.Forall₂ (FitAlike system context other) inputs twins) (specialization : Specialization)
    (parameters : List Parameter) :
    other.tiers? system specialization parameters twins = context.tiers? system specialization parameters inputs := by
  induction parameters generalizing inputs twins with
  | nil => rfl
  | cons parameter rest ih =>
      rw [Context.tiers?, Context.tiers?]
      cases specialization.resolve parameter.type with
      | error error => rfl
      | ok type =>
          dsimp only
          split
          · exact variadicTiers?_congr alike type
          · cases alike with
            | nil => rfl
            | cons first others => simp only [first type, ih others]

theorem choose?_congr {arguments twins : List ScriptValue}
    (alike : List.Forall₂ (FitAlike system context other) arguments twins) (group : OverloadGroup) :
    other.choose? system group twins = context.choose? system group arguments := by
  have ranks (candidate : Candidate) :
      other.rank? system group twins candidate = context.rank? system group arguments candidate := by
    have inputs := List.forall₂_drop (group.receiverCount candidate) alike
    simp only [rank?, inputsFor, inputs.length_eq, tiers?_congr inputs]
  simp only [Context.choose?, ranks]

end ScriptBridge.Context
