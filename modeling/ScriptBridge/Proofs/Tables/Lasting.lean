import ScriptBridge.Proofs.Tables.AddedLater

/-!
# What lasts of a binding

A slot of a bound type changes only when its member is made, unless the hidden
members of the type are shown. Where members are made as their type is bound, there
is nothing left to make: the slots of such a binding never change.
-/

namespace ScriptBridge

/--
Unless hidden members have been shown since, every slot is there still: as it was,
or with the member that it waited for.
-/
structure TypeBinding.Lasts (earlier later : TypeBinding) : Prop where
  shown : earlier.showsHidden = true → later.showsHidden = true
  settled : later.showsHidden = earlier.showsHidden → ∀ place slot, earlier.slots.get? place = some slot →
    ∃ next, later.slots.get? place = some next ∧ slot.SettlesInto next

namespace TypeBinding.Lasts

variable {earlier later : TypeBinding}

theorem refl (binding : TypeBinding) : binding.Lasts binding where
  shown := id
  settled _ _ slot present := ⟨slot, present, .inl rfl⟩

/-- What is done while hidden members are shown counts as showing them once that is noted. -/
theorem showHidden (hides : earlier.showsHidden = false) (shows : later.showsHidden = true) :
    earlier.Lasts later where
  shown _ := shows
  settled same := by
    rw [hides, shows] at same
    cases same

theorem make (lasts : earlier.Lasts later) {place : MemberTable × String}
    (waits : ∀ handle, later.slots.get? place ≠ some (.bound handle)) (handle : CallableHandle) :
    earlier.Lasts { later with slots := later.slots.insert place (.bound handle) } where
  shown := lasts.shown
  settled same other slot present := by
    rcases lasts.settled same other slot present with ⟨next, found, one⟩
    by_cases here : other = place
    · subst here
      refine ⟨.bound handle, FinMap.get?_insert_self _ _ _, one.trans (.inr ⟨?_, rfl⟩)⟩
      cases next with
      | bound made => exact absurd found (waits made)
      | unbound waiting => rfl
    · exact ⟨next, (FinMap.get?_insert_of_ne _ _ here).trans found, one⟩

end TypeBinding.Lasts

namespace Host

open Bridge

variable {type : TypeRef} {earlier : TypeBinding}

/-- Nothing but dropping a binding takes slots out of it, and only showing hidden members replaces them. -/
theorem lasts_perform (host : Host) (operation : Operation) (world : World)
    (kept : operation ≠ .unbind type) (bound : (Invariant.boundAs type earlier.Lasts).holds world) :
    (Invariant.boundAs type earlier.Lasts).holds (exec (host.perform operation) world).2 := by
  refine boundAs_perform (fun binding filling _ _ lasts hides _ => ?_) ?_ operation kept bound
  · have hidden : earlier.showsHidden = false := by
      by_contra shown
      rw [lasts.shown (by simpa using shown)] at hides
      cases hides
    exact .showHidden hidden rfl
  · exact fun binding place handle waits lasts => lasts.make waits handle

end Host

/-!
## Indexers behind a binding

The accessors for items are made for the indexers that a walk takes, and only a walk over
visible members takes any. So what is made for hidden members later has none: the accessors
of a binding stay what they were, and try no other indexers until the binding is dropped.
-/

/-- A binding has the accessors for items that are made for some indexers of its type; without indexers it has none. -/
def TypeBinding.ServesItems (callables : Array Callable) (type : TypeRef) (indexers : List PropertyDef)
    (binding : TypeBinding) : Prop :=
  ∃ items, Host.MakesItems type indexers items callables ∧
    binding.itemGetter = items.map Prod.fst ∧ binding.itemSetter = items.map Prod.snd

variable {system : TypeSystem} {type : TypeRef} {access : MemberAccess} {indexers : List PropertyDef}

/-- A walk over visible members takes those of the indexers that its access admits. -/
theorem Catalog.keyedIndexers_eq_filter (admits : access.admits .visible = true) :
    keyedIndexers system type access =
      (keyedIndexers system type .all).filter fun property => access.admits property.visibility := by
  have walked {access : MemberAccess} (admits : access.admits .visible = true) :
      keyedIndexers system type access = (system.definition type).properties.filter fun property =>
        property.isIndexer && access.admits property.visibility && !hasStringKey system property := if_pos admits
  rw [walked admits, walked rfl, List.filter_filter]
  refine List.filter_congr fun property _ => ?_
  cases access.admits property.visibility <;> simp [MemberAccess.admits]

/-- Indexers are not looked for among hidden members alone. -/
theorem Catalog.keyedIndexers_hiddenOnly : keyedIndexers system type .hiddenOnly = [] := rfl

namespace TypeBinding.ServesItems

variable {callables more : Array Callable} {binding next : TypeBinding}

/-- The accessors still go through the same indexers as long as they are there. -/
theorem later (serves : binding.ServesItems callables type indexers) (kept : KeepsCallables callables more)
    (getter : next.itemGetter = binding.itemGetter) (setter : next.itemSetter = binding.itemSetter) :
    next.ServesItems more type indexers := by
  rcases serves with ⟨items, makes, same, sameToo⟩
  exact ⟨items, Host.lasts_makesItems type indexers _ _ _ kept makes, getter.trans same, setter.trans sameToo⟩

end TypeBinding.ServesItems

namespace Host

open Bridge

variable {host : Host} {mode : BindingMode} {world after : World} {table : TableId} {depth : Nat}

/-- When a type that was not bound has been bound, it goes through the indexers that the walk over it takes. -/
theorem servesItems_of_bindWithin (unbound : world.context.isBound type = false)
    (run : exec (host.bindWithin depth type access mode) world = (.ok table, after)) :
    ∃ binding, after.context.binding? type = some binding ∧
      binding.ServesItems after.context.callables type (Catalog.keyedIndexers host.system type access) := by
  rcases filled_of_bindWithin unbound run with ⟨filling, binding, bound, same, makes⟩
  refine ⟨binding, bound, filling.items, makes.items, ?_, ?_⟩
  · rw [same]
    exact Option.or_none
  · rw [same]
    exact Option.or_none

/-- No operation changes the accessors for items of a bound type; only dropping it takes them away. -/
theorem items_perform {getter setter : Option CallableHandle} (host : Host) (operation : Operation) (world : World)
    (kept : operation ≠ .unbind type)
    (holds : (Invariant.boundAs type fun binding => binding.itemGetter = getter ∧ binding.itemSetter = setter).holds
      world) :
    (Invariant.boundAs type fun binding => binding.itemGetter = getter ∧ binding.itemSetter = setter).holds
      (exec (host.perform operation) world).2 := by
  refine boundAs_perform (fun binding filling extensions callables items _ makes => ?_)
    (fun _ _ _ _ items => items) operation kept holds
  have none : filling.items = none := by
    rcases makes.items with ⟨-, none⟩ | ⟨some, -⟩
    · exact none
    · exact absurd (@Catalog.keyedIndexers_hiddenOnly host.system type) some
  rw [TypeBinding.fill, none]
  exact items

end Host

end ScriptBridge
