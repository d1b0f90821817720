import Mathlib.Data.List.Induction
import Mathlib.Data.List.Perm.Basic
import ScriptBridge.Host.Value

/-!
# Delegates as lists of targets

A value that keeps handlers is null, or a delegate that is never without a target.
Combining appends the targets of a delegate, and removing takes off the last occurrence
of each of its targets in turn. What was combined is so removed again: as many targets as
the delegate has are taken off, and all of them are found among the appended ones.
-/

namespace ScriptBridge

section LastOccurrence

variable {α β : Type} [DecidableEq α] [DecidableEq β]

/-- The list without the last occurrence of an item, if there is one. -/
def withoutLast (item : α) : List α → List α
  | [] => []
  | first :: rest =>
      if item ∈ rest then first :: withoutLast item rest
      else if first = item then rest
      else first :: rest

theorem withoutLast_append_cons {item : α} (front : List α) {rest : List α} (last : item ∉ rest) :
    withoutLast item (front ++ item :: rest) = front ++ rest := by
  induction front with
  | nil => rw [List.nil_append, withoutLast, if_neg last, if_pos rfl, List.nil_append]
  | cons first front ih =>
      rw [List.cons_append, withoutLast, if_pos (List.mem_append_right _ List.mem_cons_self), ih, List.cons_append]

theorem withoutLast_append_singleton (item other : α) (items : List α) :
    withoutLast item (items ++ [other]) = if other = item then items else withoutLast item items ++ [other] := by
  split
  next same =>
    subst same
    simpa using withoutLast_append_cons items (List.not_mem_nil (a := other))
  next different =>
    induction items with
    | nil => simp [withoutLast, different]
    | cons first rest ih =>
        have elsewhere : item ∈ rest ++ [other] ↔ item ∈ rest := by simp [Ne.symm different]
        simp only [List.cons_append, withoutLast, elsewhere, ih]
        split
        · rfl
        · split <;> rfl

theorem map_withoutLast {f : α → β} (injective : Function.Injective f) (item : α) (items : List α) :
    (withoutLast item items).map f = withoutLast (f item) (items.map f) := by
  induction items with
  | nil => rfl
  | cons first rest ih =>
      simp only [withoutLast, List.map_cons, List.mem_map_of_injective injective, injective.eq_iff, ← ih]
      split
      · rfl
      · split <;> rfl

end LastOccurrence

namespace Delegate

theorem removeLast_eq (target : UInt64) (targets : List UInt64) :
    removeLast target targets = withoutLast target targets := by
  induction targets using List.reverseRecOn with
  | nil => rfl
  | append_singleton targets other ih =>
      rw [withoutLast_append_singleton, ← ih, removeLast, removeLast, List.reverse_append, List.reverse_singleton,
        List.singleton_append, List.erase_cons]
      simp only [beq_iff_eq]
      split <;> simp

theorem removeLast_append_of_mem {target : UInt64} {suffix : List UInt64} (present : target ∈ suffix)
    (front : List UInt64) : removeLast target (front ++ suffix) = front ++ removeLast target suffix := by
  rw [removeLast, removeLast, List.reverse_append, List.erase_append_left _ (List.mem_reverse.mpr present),
    List.reverse_append, List.reverse_reverse]

theorem removeLast_perm_erase (target : UInt64) (targets : List UInt64) :
    (removeLast target targets).Perm (targets.erase target) :=
  (List.reverse_perm _).trans ((List.reverse_perm targets).erase target)

/-- The targets that are left when some are taken off one after the other. -/
def removeAll (removed targets : List UInt64) : List UInt64 :=
  removed.foldl (fun left target => removeLast target left) targets

/-- Targets that were appended are taken off again in any order, and nothing in front of them is touched. -/
theorem removeAll_append_of_perm {suffix removed : List UInt64} (same : suffix.Perm removed) (front : List UInt64) :
    removeAll removed (front ++ suffix) = front := by
  induction removed generalizing suffix with
  | nil =>
      obtain rfl := same.eq_nil
      exact List.append_nil front
  | cons target removed ih =>
      have present : target ∈ suffix := same.mem_iff.mpr List.mem_cons_self
      have left : (removeLast target suffix).Perm removed := by
        have erased := same.erase target
        rw [List.erase_cons_head] at erased
        exact (removeLast_perm_erase target suffix).trans erased
      rw [removeAll, List.foldl_cons, removeLast_append_of_mem present]
      exact ih left

end Delegate

/-- A value keeps a list of targets: null keeps none, and a delegate its own, of which there always are some. -/
inductive HostValue.Keeps : List UInt64 → HostValue → Prop
  | nothing : Keeps [] .null
  | delegate (delegate : Delegate) (someTarget : delegate.targets ≠ []) : Keeps delegate.targets (.delegate delegate)

/-- The targets of a delegate; any other value has none. -/
def HostValue.handlers (value : HostValue) : List UInt64 := (value.asDelegate?.map (·.targets)).getD []

theorem HostValue.Keeps.handlers_eq {targets : List UInt64} {value : HostValue} (keeps : Keeps targets value) :
    value.handlers = targets := by
  cases keeps <;> rfl

namespace Delegate

theorem keeps_combine (current : HostValue) {added : Delegate} (someTarget : added.targets ≠ []) :
    (combine current added).Keeps (current.handlers ++ added.targets) := by
  cases current with
  | delegate present => exact .delegate ⟨present.type, _⟩ (List.append_ne_nil_of_right_ne_nil _ someTarget)
  | _ => exact .delegate added someTarget

theorem removeAll_nil (removed : List UInt64) : removeAll removed [] = [] := by
  induction removed with
  | nil => rfl
  | cons target removed ih => exact ih

theorem remove_delegate (present removed : Delegate) :
    remove (.delegate present) removed =
      if (removeAll removed.targets present.targets).isEmpty then .null
      else .delegate ⟨present.type, removeAll removed.targets present.targets⟩ :=
  rfl

theorem keeps_remove (current : HostValue) (removed : Delegate) :
    (remove current removed).Keeps (removeAll removed.targets current.handlers) := by
  cases current with
  | delegate present =>
      rw [show (HostValue.delegate present).handlers = present.targets from rfl, remove_delegate]
      split
      next empty =>
        rw [List.isEmpty_iff.mp empty]
        exact .nothing
      next someTarget =>
        exact .delegate ⟨present.type, removeAll removed.targets present.targets⟩ (by simpa using someTarget)
  | _ =>
      rw [show HostValue.handlers _ = [] from rfl, removeAll_nil]
      exact .nothing

/-- Removing what was combined gives back what was there, however often targets are repeated on either side. -/
theorem remove_combine_of_perm {targets : List UInt64} {current : HostValue} (keeps : current.Keeps targets)
    {added removed : Delegate} (same : added.targets.Perm removed.targets) :
    remove (combine current added) removed = current := by
  cases keeps with
  | nothing =>
      have none : removeAll removed.targets added.targets = [] := removeAll_append_of_perm same []
      rw [combine, remove_delegate, none]
      · rfl
      · exact fun _ => HostValue.noConfusion
  | delegate present someTarget =>
      have restored := removeAll_append_of_perm same present.targets
      rw [combine, remove_delegate, restored, if_neg (by simpa using someTarget)]

end Delegate

end ScriptBridge
