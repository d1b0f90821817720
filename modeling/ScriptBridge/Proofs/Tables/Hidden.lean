import ScriptBridge.Proofs.Tables.Calls
import ScriptBridge.Proofs.Tables.Continuing
import ScriptBridge.Proofs.Tables.Named

/-!
# Hidden overloads

Showing the hidden members of a type whose members are made at first use puts a new
placeholder into the slot of every method name that some hidden method has. As long
as it is there, a call through the slot makes the callable of all methods of the name.
-/

namespace ScriptBridge

def Callable.pending? : Callable → Option PendingMember
  | .placeholder member => some member
  | _ => none

theorem Callable.eq_of_pending? {callable : Callable} {member : PendingMember}
    (pending : callable.pending? = some member) : callable = .placeholder member := by
  cases callable <;> first | exact congrArg placeholder (Option.some.inj pending) | cases pending

namespace Host

open Bridge

variable {host : Host} {type : TypeRef} {binding : TypeBinding} {world after : World} {name : String}
  {isStatic : Bool}

/-- The placeholder that is put into the slot of a method when hidden members are shown. -/
def hiddenPlaceholder (type : TypeRef) (name : String) (isStatic : Bool) : PendingMember :=
  ⟨type, .method, name, isStatic, .hiddenOnly⟩

/-- A placeholder for all methods of a name waits in the slot of that name. -/
def AwaitsAll (context : Context) (type : TypeRef) (name : String) (isStatic : Bool)
    (handle : CallableHandle) : Prop :=
  (∃ binding, context.binding? type = some binding ∧ binding.showsHidden = true ∧
    binding.slot? (.ofMember .method isStatic) name = some (.unbound handle)) ∧
  context.callable? handle = some (.placeholder (hiddenPlaceholder type name isStatic))

/-- The last slot that a filling has at the place of a method group is made for a method group of that name. -/
theorem Makes.slot_of_group {access : MemberAccess} {mode : BindingMode} {extensions : Option ExtensionMap}
    {filling : Filling} {callables : Array Callable}
    (makes : host.Makes type access mode (.ofType host.system type access extensions) filling callables)
    {member : CatalogMember}
    (found : (Catalog.ofType host.system type access extensions).find? .method name isStatic = some member)
    (slots : FinMap (MemberTable × String) MemberSlot) :
    ∃ slot, (slots.insertAll filling.slots).get? (.ofMember .method isStatic, name) = some slot ∧
      slot.isBound = (mode == .eager) ∧
      ∃ group : CatalogMember, group.kind = .method ∧ group.name = name ∧ group.isStatic = isStatic ∧
        Registered callables slot.handle (host.initialCallable type access mode group) := by
  have isGroup : ∀ group ∈ Catalog.groupMembers (Catalog.methodGroups host.system type access extensions),
      group.kind = .method := by
    intro group listed
    rcases List.mem_map.mp listed with ⟨entry, -, rfl⟩
    rfl
  rcases Catalog.members_eq host.system type access extensions with ⟨others, members, noMethod⟩
  have matched := List.find?_some found
  simp only [Bool.and_eq_true, decide_eq_true_eq, beq_iff_eq] at matched
  have listed : member ∈ Catalog.groupMembers (Catalog.methodGroups host.system type access extensions) := by
    have present := List.mem_of_find?_eq_some found
    rw [members] at present
    exact (List.mem_append.mp present).resolve_left fun other => noMethod member other matched.1.1
  -- The slots of method groups come last, so no other member takes their place.
  have made := makes.slots
  rw [members] at made
  have groups := List.forall₂_drop_append _ _ _ made.flip
  rcases exists_item_of_forall₂ groups listed with ⟨made, present, place, -⟩
  have known : ∃ pair ∈ filling.slots.drop others.length, pair.1 = (MemberTable.ofMember .method isStatic, name) := by
    refine ⟨made, present, place.trans ?_⟩
    rw [CatalogMember.place, matched.1.1, matched.1.2, matched.2]
  rcases FinMap.exists_get?_insertAll (slots.insertAll (filling.slots.take others.length)) known with
    ⟨pair, last, samePlace, got⟩
  rcases exists_value_of_forall₂ groups last with ⟨group, among, groupPlace, isBound, registered⟩
  rw [← FinMap.insertAll_append, List.take_append_drop] at got
  refine ⟨pair.2, got, isBound, group, isGroup group among, ?_, ?_, registered⟩
  · exact (Prod.mk.inj (groupPlace.symm.trans samePlace)).2
  · have sameTable := (Prod.mk.inj (groupPlace.symm.trans samePlace)).1
    rw [isGroup group among] at sameTable
    revert sameTable
    cases group.isStatic <;> cases isStatic <;> decide

/-- When hidden members have been shown, a placeholder waits for every method name that some hidden method has. -/
theorem awaitsAll_of_showHidden (bound : world.context.binding? type = some binding)
    (onDemand : binding.mode = .lazy) (hides : binding.showsHidden = false)
    (run : exec (host.showHidden type) world = (.ok (), after))
    (hidden : name ∈ Catalog.hiddenNames host.system type) {member : CatalogMember}
    (listed : (Catalog.ofType host.system type .all (host.extensionsIn world.context)).find? .method name isStatic =
      some member) :
    ∃ handle, AwaitsAll after.context type name isStatic handle := by
  rcases binding?_of_showHiddenWithin bound hides run with ⟨filling, boundAfter, makes⟩
  rw [← Catalog.find?_hiddenOnly hidden] at listed
  rcases makes.slot_of_group listed binding.slots with
    ⟨slot, found, waits, group, isMethod, sameName, sameStatic, registered⟩
  rw [onDemand] at waits registered
  cases slot with
  | bound handle => cases waits
  | unbound handle =>
      refine ⟨handle, ⟨_, boundAfter, rfl, found⟩, ?_⟩
      rw [initialCallable, isMethod, sameName, sameStatic] at registered
      exact registered

/-- A call through a placeholder that waits for all methods of a name makes their callable and runs it. -/
theorem exec_call_of_awaitsAll {handle : CallableHandle}
    (awaits : AwaitsAll world.context type name isStatic handle)
    (hidden : name ∈ Catalog.hiddenNames host.system type) {member : CatalogMember}
    (listed : (Catalog.ofType host.system type .all (host.extensionsIn world.context)).find? .method name isStatic =
      some member)
    (room : world.context.callables.size < UInt32.size) (arguments : List ScriptValue) :
    ∃ made binding after, after.context.callable? made = some (.ofMember host.system type member) ∧
      after.context.binding? type = some binding ∧
      binding.slot? (.ofMember .method isStatic) name = some (.bound made) ∧
      exec (host.call (.function handle) arguments) world =
        exec (host.runMember (.ofMember host.system type member) arguments) after := by
  rcases awaits with ⟨⟨binding, bound, -, waits⟩, registered⟩
  have called : exec (host.call (.function handle) arguments) world =
      exec (host.runPlaceholder (hiddenPlaceholder type name isStatic) arguments) world :=
    exec_invoke_of_placeholder registered arguments
  have pending : host.pending? world.context (hiddenPlaceholder type name isStatic) = some member :=
    (Catalog.find?_hiddenOnly hidden isStatic _).trans listed
  have leads := host.resolved_resolveMember (hiddenPlaceholder type name isStatic) world
  cases resolved : exec (host.resolveMember (hiddenPlaceholder type name isStatic)) world with
  | mk result after =>
      rw [resolved] at leads
      cases leads with
      | failed _ reason =>
          rcases reason with unbound | none | full
          · cases bound.symm.trans unbound
          · cases pending.symm.trans none
          · omega
      | present boundToo made =>
          rcases Option.some.inj (bound.symm.trans boundToo) with rfl
          cases waits.symm.trans made
      | @made _ found made middle boundToo _ listedToo only callable =>
          rcases Option.some.inj (pending.symm.trans listedToo) with rfl
          have stillBound : middle.context.binding? type = some binding := by
            rw [Context.binding?, only.bindings_eq, bindings_withExtensions]
            exact bound
          have sameCallable :=
            (callable?_settled (hiddenPlaceholder type name isStatic) made made middle).trans callable
          refine ⟨made, _, _, sameCallable, binding?_settled stillBound made, FinMap.get?_insert_self _ _ _,
            called.trans ?_⟩
          rw [runPlaceholder, exec_bind_of_ok resolved, exec_bind_of_ok (exec_context _), sameCallable]
          rfl

end Host

end ScriptBridge
