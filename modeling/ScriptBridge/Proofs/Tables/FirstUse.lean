import ScriptBridge.Proofs.Steps.Resolving

/-!
# The first use of a slot

What is called through a slot is made first, if the slot waits for it. Making a member
changes one slot and adds callables; everything else that a script can tell stays as it
was. After that, the callable of the member runs as it does for every later use.
-/

namespace ScriptBridge

open Bridge

/-- Bindings that differ at most in the slot at one place. -/
structure TypeBinding.SameBut (place : MemberTable × String) (before after : TypeBinding) : Prop where
  slots : ∀ other, other ≠ place → after.slots.get? other = before.slots.get? other
  rest : after = { before with slots := after.slots }

/-- Contexts whose tables differ at most in slots at one place; callables may have been added. -/
structure Context.SameBut (host : Host) (place : MemberTable × String) (before after : Context) : Prop where
  heap : after.heap = before.heap
  kept : ∀ type binding, before.binding? type = some binding →
    ∃ other, after.binding? type = some other ∧ binding.SameBut place other
  added : ∀ type other, after.binding? type = some other →
    ∃ binding, before.binding? type = some binding ∧ binding.SameBut place other
  callables : KeepsCallables before.callables after.callables
  extensions : host.extensionsIn after = host.extensionsIn before

/-- What calling a slot runs in the end: its callable, or that of the member which its placeholder stands for. -/
inductive MemberSlot.LeadsTo (host : Host) (context : Context) (type : TypeRef) (place : MemberTable × String) :
    MemberSlot → Callable → Prop
  | made {handle : CallableHandle} {callable : Callable} (registered : Registered context.callables handle callable)
      (generated : callable.isGenerated = true) : LeadsTo host context type place (.bound handle) callable
  | waiting {handle : CallableHandle} {member : PendingMember} {listed : CatalogMember}
      (registered : Registered context.callables handle (.placeholder member)) (own : member.type = type)
      (there : (member.table, member.name) = place) (found : host.pending? context member = some listed) :
      LeadsTo host context type place (.unbound handle) (.ofMember host.system type listed)

namespace TypeBinding.SameBut

variable {place : MemberTable × String} {before middle after : TypeBinding}

theorem refl (binding : TypeBinding) : binding.SameBut place binding := ⟨fun _ _ => rfl, rfl⟩

theorem insert (binding : TypeBinding) (slot : MemberSlot) :
    binding.SameBut place { binding with slots := binding.slots.insert place slot } where
  slots _ different := FinMap.get?_insert_of_ne _ _ different
  rest := rfl

theorem trans (first : before.SameBut place middle) (second : middle.SameBut place after) :
    before.SameBut place after where
  slots other different := (second.slots other different).trans (first.slots other different)
  rest := by
    have rest := second.rest
    rw [first.rest] at rest
    exact rest

end TypeBinding.SameBut

namespace Context.SameBut

variable {host : Host} {place : MemberTable × String} {before middle after : Context} {type : TypeRef}

theorem of_bindings_eq (heap : after.heap = before.heap) (bindings : after.bindings = before.bindings)
    (callables : KeepsCallables before.callables after.callables)
    (extensions : host.extensionsIn after = host.extensionsIn before) : before.SameBut host place after where
  heap := heap
  kept type binding bound := ⟨binding, (congrArg (FinMap.get? · type) bindings).trans bound, .refl binding⟩
  added type binding bound := ⟨binding, (congrArg (FinMap.get? · type) bindings).symm.trans bound, .refl binding⟩
  callables := callables
  extensions := extensions

theorem trans (first : before.SameBut host place middle) (second : middle.SameBut host place after) :
    before.SameBut host place after where
  heap := second.heap.trans first.heap
  kept type binding bound := by
    rcases first.kept type binding bound with ⟨other, found, alike⟩
    rcases second.kept type other found with ⟨last, present, alikeToo⟩
    exact ⟨last, present, alike.trans alikeToo⟩
  added type last bound := by
    rcases second.added type last bound with ⟨other, found, alike⟩
    rcases first.added type other found with ⟨binding, present, alikeToo⟩
    exact ⟨binding, present, alikeToo.trans alike⟩
  callables := first.callables.trans second.callables
  extensions := second.extensions.trans first.extensions

theorem insertSlot (context : Context) (type : TypeRef) (slot : MemberSlot) :
    context.SameBut host place (context.modifyBinding type fun binding =>
      { binding with slots := binding.slots.insert place slot }) where
  heap := by rw [modifyBinding_eq]
  kept other binding bound := by
    rw [binding?_modifyBinding]
    split
    next same =>
      subst same
      exact ⟨_, by rw [bound]; rfl, .insert binding slot⟩
    next => exact ⟨binding, bound, .refl binding⟩
  added other last bound := by
    rw [binding?_modifyBinding] at bound
    split at bound
    next same =>
      subst same
      rcases Option.map_eq_some_iff.mp bound with ⟨binding, found, rfl⟩
      exact ⟨binding, found, .insert binding slot⟩
    next => exact ⟨last, bound, .refl last⟩
  callables := by
    rw [callables_modifyBinding]
    exact .refl _
  extensions := by rw [modifyBinding_eq]; rfl

variable (same : before.SameBut host place after)

include same

/-- What can be read of a binding without its slots is the same. -/
theorem map_binding?_eq {α : Type} (type : TypeRef) (read : TypeBinding → α)
    (ignores : ∀ (binding : TypeBinding) slots, read { binding with slots := slots } = read binding) :
    (after.binding? type).map read = (before.binding? type).map read := by
  cases bound : before.binding? type with
  | some binding =>
      rcases same.kept type binding bound with ⟨other, found, alike⟩
      rw [found, Option.map_some, Option.map_some, alike.rest, ignores]
  | none =>
      cases found : after.binding? type with
      | none => rfl
      | some other =>
          rcases same.added type other found with ⟨binding, earlier, -⟩
          cases bound.symm.trans earlier

theorem isBound_eq (type : TypeRef) : after.isBound type = before.isBound type := by
  have present := congrArg Option.isSome (same.map_binding?_eq type (fun _ => ()) fun _ _ => rfl)
  rwa [Option.isSome_map, Option.isSome_map] at present

theorem lookupChain_eq (type : TypeRef) : after.lookupChain host.system type = before.lookupChain host.system type := by
  rw [lookupChain, lookupChain, same.map_binding?_eq type _ fun _ _ => rfl]

theorem pending?_eq (member : PendingMember) : host.pending? after member = host.pending? before member := by
  rw [Host.pending?, Host.pending?, same.extensions]

theorem leadsTo {other : MemberTable × String} {slot : MemberSlot} {callable : Callable}
    (leads : slot.LeadsTo host before type other callable) : slot.LeadsTo host after type other callable := by
  cases leads with
  | made registered generated => exact .made (same.callables _ _ registered) generated
  | waiting registered own there found =>
      exact .waiting (same.callables _ _ registered) own there ((same.pending?_eq _).trans found)

end Context.SameBut

namespace Host

/-- Makes the member of a slot if the slot waits for it, as the first use of the slot does. -/
def makeMember (host : Host) : MemberSlot → Bridge ScriptError Unit
  | .bound _ => return
  | .unbound handle => do
      match (← Bridge.context).callable? handle with
      | some (.placeholder member) => discard (host.resolveMember member)
      | _ => return

/-- What making a member leads to: a world with one more member, or the context can take no more callables. -/
inductive Made (host : Host) (place : MemberTable × String) (before : World) : Except ScriptError Unit × World → Prop
  | full (noRoom : UInt32.size ≤ before.context.callables.size) :
      Made host place before (.error (.ofBindError .callableLimit), host.withExtensions before)
  | made {after : World} (store : after.store = before.store) (cache : after.context.cache = before.context.cache)
      (same : before.context.SameBut host place after.context) : Made host place before (.ok (), after)

variable {host : Host} {world : World} {type : TypeRef} {place : MemberTable × String} {binding : TypeBinding}
  {slot : MemberSlot} {callable : Callable}

theorem sameBut_withExtensions (world : World) :
    world.context.SameBut host place (host.withExtensions world).context := by
  have steps := (binds_extensionMap (ε := ScriptError)).chain (host.exec_extensionMap world)
  refine .of_bindings_eq ?_ (host.bindings_withExtensions world) (keepsCallables_of_bindSteps steps)
    (extensionsIn_eq_of_bindSteps steps)
  rw [withExtensions]
  split <;> rfl

theorem sameBut_settled {member : PendingMember} {after : World}
    (registered : (host.withExtensions world).OnlyRegistered after) (handle : CallableHandle) :
    world.context.SameBut host (member.table, member.name) (settled member handle after).context := by
  have added : (host.withExtensions world).context.SameBut host (member.table, member.name) after.context := by
    refine .of_bindings_eq ?_ registered.bindings_eq registered.keeps ?_ <;> rw [registered.rest]
    rfl
  have inserted :=
    @Context.SameBut.insertSlot host (member.table, member.name) after.context member.type (.bound handle)
  exact ((sameBut_withExtensions world).trans added).trans (inserted.trans (.of_bindings_eq rfl rfl (.refl _) rfl))

/-- A placeholder is resolved to what it stands for, as long as its slot waits and there is room. -/
theorem exec_resolveMember_of_waiting {member : PendingMember} {listed : CatalogMember}
    (bound : world.context.binding? member.type = some binding)
    (waits : ∀ handle, binding.slot? member.table member.name ≠ some (.bound handle))
    (found : host.pending? world.context member = some listed) :
    (∃ handle after, exec (host.resolveMember member) world = (.ok handle, settled member handle after) ∧
      (host.withExtensions world).OnlyRegistered after ∧
      Registered after.context.callables handle (.ofMember host.system member.type listed)) ∨
    exec (host.resolveMember member) world = (.error (.ofBindError .callableLimit), host.withExtensions world) ∧
      UInt32.size ≤ world.context.callables.size := by
  rcases Nat.lt_or_ge world.context.callables.size UInt32.size with room | full
  · left
    have resolved := host.resolved_resolveMember member world
    generalize exec (host.resolveMember member) world = run at resolved
    cases resolved with
    | failed same reason =>
        rw [bound, found] at reason
        rcases reason with impossible | impossible | full
        · cases impossible
        · cases impossible
        · omega
    | present boundToo made =>
        obtain rfl := Option.some.inj (bound.symm.trans boundToo)
        exact absurd made (waits _)
    | made boundToo waitsToo foundToo registered callable =>
        obtain rfl := Option.some.inj (found.symm.trans foundToo)
        exact ⟨_, _, rfl, registered, callable⟩
  · right
    refine ⟨?_, full⟩
    have unchanged : (host.withExtensions world).context.callables = world.context.callables := by
      rw [withExtensions]
      split <;> rfl
    rw [resolveMember, exec_bind_of_ok (exec_context world), bound]
    dsimp only
    split
    next handle made => exact absurd made (waits handle)
    next =>
      rw [exec_bind_of_ok (host.exec_extensionMap world)]
      rw [pending?] at found
      simp only [found]
      rw [exec_bind, asScript, exec_adapt, exec_register_of_full (unchanged ▸ full)]
      rfl

/-- A call through a slot makes the member if it has to, and then runs it. -/
theorem exec_invoke_slot (bound : world.context.binding? type = some binding)
    (present : binding.slots.get? place = some slot) (leads : slot.LeadsTo host world.context type place callable)
    (arguments : List ScriptValue) :
    host.Made place world (exec (host.makeMember slot) world) ∧
      exec (host.invoke slot.handle arguments) world =
        exec (do host.makeMember slot; host.runMember callable arguments) world := by
  cases leads with
  | made registered generated =>
      exact ⟨.made rfl rfl (.of_bindings_eq rfl rfl (.refl _) rfl), exec_invoke_of_generated registered generated _⟩
  | @waiting handle member listed registered own there found =>
      subst own there
      have waits : ∀ handle, binding.slot? member.table member.name ≠ some (.bound handle) := by
        intro other made
        rw [TypeBinding.slot?, present] at made
        cases made
      have makes : exec (host.makeMember (.unbound handle)) world =
          exec (discard (host.resolveMember member)) world := by
        rw [makeMember, exec_bind_of_ok (exec_context world)]
        simp only [show world.context.callable? handle = some (.placeholder member) from registered]
      have called : exec (host.invoke handle arguments) world = exec (host.runPlaceholder member arguments) world :=
        exec_invoke_of_placeholder registered arguments
      rcases exec_resolveMember_of_waiting bound waits found with
        ⟨made, after, resolved, only, callable⟩ | ⟨failed, full⟩
      · have making : exec (host.makeMember (.unbound handle)) world = (.ok (), settled member made after) := by
          rw [makes, exec_discard, resolved]
          rfl
        have looked := (callable?_settled member made made after).trans callable
        rw [making]
        refine ⟨.made ?_ ?_ (sameBut_settled only made), called.trans ?_⟩
        · rw [settled, only.rest, store_withExtensions]
        · rw [settled, only.rest, withExtensions]
          dsimp only
          rw [Context.modifyBinding_eq]
          split <;> rfl
        · rw [runPlaceholder, exec_bind_of_ok resolved, exec_bind_of_ok (exec_context _), looked,
            exec_bind_of_ok making]
      · have making : exec (host.makeMember (.unbound handle)) world =
            (.error (.ofBindError .callableLimit), host.withExtensions world) := by
          rw [makes, exec_discard, failed]
          rfl
        rw [making]
        refine ⟨.full full, called.trans ?_⟩
        rw [runPlaceholder, exec_bind_of_error failed, exec_bind_of_error making]

end Host

end ScriptBridge
