import ScriptBridge.Proofs.Realms.Fields
import ScriptBridge.Proofs.Tables.Groups

/-!
# Method slots and their candidates

A walk takes a method if its parameters can be specialized, and a group offers it if all
its generic parameters can. So a method with a generic parameter that only its result or
its body uses can have a slot of its own to which no call leads.
-/

namespace ScriptBridge

/-- The slot has the callable of a group, or a placeholder for which it is made at first use. -/
inductive MemberSlot.StandsFor (callables : Array Callable) (group : OverloadGroup) (pending : PendingMember) :
    MemberSlot → Prop
  | made {handle : CallableHandle} (registered : Registered callables handle (.method group)) :
      StandsFor callables group pending (.bound handle)
  | waiting {handle : CallableHandle} (registered : Registered callables handle (.placeholder pending)) :
      StandsFor callables group pending (.unbound handle)

/-- The group that a callable calls a method of, if it does. -/
def Callable.calledGroup? : Callable → Option OverloadGroup
  | .method group => some group
  | _ => none

theorem Callable.eq_method_of_calledGroup? {callable : Callable} {group : OverloadGroup}
    (calls : callable.calledGroup? = some group) : callable = .method group := by
  cases callable with
  | method called => rw [Option.some.inj calls]
  | _ => cases calls

namespace Realm

/--
What method slots stand for. In every run, a slot in a table of methods is of a walk over the type: either for an event
that the walk admits, or for the group of its name and staticness. That has the supported methods which the walk takes,
from the first on that opens a group, then the extension methods, and is not empty. A call finds a candidate in it
exactly if one of the methods has a constraint for every generic parameter; of an extension method it is asked anew
whether it is supported.
-/
theorem methodSlots_offer (actions : List Action) (place : Nat) (context : Context)
    (present : (core.actAll actions).contexts[place]? = some context) (type : TypeRef) (binding : TypeBinding)
    (bound : context.binding? type = some binding) (name : String) (isStatic : Bool) (slot : MemberSlot)
    (installed : binding.slots.get? (.ofMember .method isStatic, name) = some slot) :
    ∃ earlier access extensions, earlier.Precedes (core.actAll actions).system ∧
      ((∃ event ∈ (earlier.definition type).events, access.admits event.visibility = true ∧ event.name = name ∧
          event.isStatic = isStatic) ∨
        let own := Catalog.ownMethods earlier type access (name, isStatic)
        let joined := Catalog.joinedMethods earlier type access extensions (name, isStatic)
        let group := OverloadGroup.ofMethods earlier type name (if isStatic then .onType else .onInstance)
          (own ++ joined)
        own ++ joined ≠ [] ∧
          slot.StandsFor context.callables group ⟨type, .method, name, isStatic, access⟩ ∧
          (group.candidates ≠ [] ↔ (∃ method ∈ own, method.definition.Constrained) ∨
            ∃ method ∈ joined, earlier.isSupported method.definition = true ∧ method.definition.Constrained)) := by
  have cataloged := cataloged_actAll actions place context present type binding bound _
    (FinMap.mem_entries_of_get? installed)
  cases cataloged with
  | @made earlier access extensions member handle precedes listed there registered =>
      refine ⟨earlier, access, extensions, precedes, (Catalog.event_or_group_of_mem listed there).imp_right ?_⟩
      rintro ⟨some, rfl⟩
      exact ⟨some, .made registered, Catalog.candidates_group_ne_nil_iff⟩
  | @waiting earlier access extensions member handle precedes listed there registered =>
      refine ⟨earlier, access, extensions, precedes, (Catalog.event_or_group_of_mem listed there).imp_right ?_⟩
      rintro ⟨some, rfl⟩
      exact ⟨some, .waiting registered, Catalog.candidates_group_ne_nil_iff⟩

def part : TypeDef := TypeDef.ofClass "Game" "Part"

def finder : TypeDef := (TypeDef.ofClass "Game" "Finder").addMethods [.named "Find" (.native 0)]

/-- A finder with a method of the same name, of whose generic parameters only the first is constrained. -/
def seeker : TypeDef :=
  let declared := (TypeDef.ofClass "Game" "Seeker").addMethods
    [{ MethodDef.named "Find" (.native 0) with
        parameters := [⟨"part", .generic 0, .byValue, false⟩]
        generics := [⟨"T", [.declared 14]⟩, ⟨"U", []⟩] }]
  { declared with base := some (.declared 15) }

/-- The types are declared, and a context binds seekers, and with them finders. -/
def seekerBound : List Action :=
  [.declare part, .declare finder, .declare seeker,
    .addNative fun _ invocation => pure (invocation.complete .null), .openContext .standard,
    .perform 0 (.bind (.declared 16))]

/-- The method slot of finders stands for a group that is not empty. -/
theorem methodSlots_offer_finder :
    ∃ context binding slot,
      (core.actAll seekerBound).contexts[0]? = some context ∧ context.binding? (.declared 15) = some binding ∧
      binding.slots.get? (.ofMember .method false, "Find") = some slot ∧
      ∃ earlier access extensions, earlier.Precedes (core.actAll seekerBound).system ∧
        Catalog.ownMethods earlier (.declared 15) access ("Find", false) ++
          Catalog.joinedMethods earlier (.declared 15) access extensions ("Find", false) ≠ [] := by
  have reached : (core.actAll seekerBound).contexts[0]?.any fun context =>
      (context.binding? (.declared 15)).any fun binding =>
        (binding.slots.get? (.ofMember .method false, "Find")).isSome := by
    decide +kernel
  rcases Option.any_eq_true _ _ |>.mp reached with ⟨context, present, reached⟩
  rcases Option.any_eq_true _ _ |>.mp reached with ⟨binding, bound, reached⟩
  rcases Option.isSome_iff_exists.mp reached with ⟨slot, installed⟩
  rcases methodSlots_offer seekerBound 0 context present _ binding bound "Find" false slot installed with
    ⟨earlier, access, extensions, precedes, ⟨event, declared, -⟩ | ⟨some, -⟩⟩
  · have noEvents : ((core.actAll seekerBound).system.definition (.declared 15)).events = [] := by decide +kernel
    have declaredStill := precedes.mem_events declared
    rw [noEvents] at declaredStill
    cases declaredStill
  · exact ⟨context, binding, slot, present, bound, installed, earlier, access, extensions, precedes, some⟩

/-- The slot of seekers has a callable without candidates, and hides the one of finders that has one. -/
theorem not_forall_methodSlots_callable :
    ¬∀ (actions : List Action) (place : Nat) (context : Context) (type : TypeRef) (binding : TypeBinding)
        (name : String) (isStatic : Bool) (handle : CallableHandle) (group : OverloadGroup),
      (core.actAll actions).contexts[place]? = some context → context.binding? type = some binding →
      binding.slots.get? (.ofMember .method isStatic, name) = some (.bound handle) →
      context.callable? handle = some (.method group) → group.candidates ≠ [] := by
  intro claim
  have reached : (core.actAll seekerBound).contexts[0]?.any fun context =>
      (context.binding? (.declared 16)).any fun binding =>
        (binding.slots.get? (.ofMember .method false, "Find")).any fun slot =>
          slot.isBound && ((context.callable? slot.handle).bind Callable.calledGroup?).any OverloadGroup.isEmpty := by
    decide +kernel
  rcases Option.any_eq_true _ _ |>.mp reached with ⟨context, present, reached⟩
  rcases Option.any_eq_true _ _ |>.mp reached with ⟨binding, bound, reached⟩
  rcases Option.any_eq_true _ _ |>.mp reached with ⟨slot, installed, reached⟩
  rcases Bool.and_eq_true_iff.mp reached with ⟨made, calls⟩
  rcases Option.any_eq_true _ _ |>.mp calls with ⟨group, called, empty⟩
  rcases Option.bind_eq_some_iff.mp called with ⟨callable, registered, isCalled⟩
  obtain rfl := Callable.eq_method_of_calledGroup? isCalled
  cases slot with
  | unbound handle => cases made
  | bound handle =>
      exact claim seekerBound 0 context _ binding "Find" false handle group present bound installed registered
        (List.isEmpty_iff.mp empty)

end Realm

end ScriptBridge
