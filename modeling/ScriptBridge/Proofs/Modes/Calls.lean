import ScriptBridge.Proofs.Modes.Members
import ScriptBridge.Proofs.Steps.Resolving

/-!
# Calls in both modes

A call of a member in one context does the same as a call of the member, or of
its placeholder, in the other one. The placeholder first puts the callable that
it promises into its slot, which is the only thing that the second context does
alone.
-/

namespace ScriptBridge

open Bridge

namespace Comparison

variable {c : Comparison} {inProgress : Option TypeRef} {before : World × World} {left right : World}
  {ε α β : Type}

/-- The slot in the second context where a placeholder waits, and the slot of its member in the first one. -/
theorem Agree.waiting_slot (agree : c.Agree left right) {type : TypeRef} {table : MemberTable} {name : String}
    {other : TypeBinding} {pending : CallableHandle} (bound : right.context.binding? type = some other)
    (present : other.slot? table name = some (.unbound pending)) :
    ∃ binding handle, left.context.binding? type = some binding ∧
      c.BindingsAgree left.context.callables right.context.callables type binding other ∧
      binding.slot? table name = some (.bound handle) ∧
      ∃ member callable, Registered left.context.callables handle callable ∧
        Registered right.context.callables pending (.placeholder member) ∧
        c.callableOf? member = some callable := by
  rcases agree.binding?_cases type with ⟨-, absent⟩ | ⟨binding, found, leftBound, rightBound, bindings⟩
  · rw [bound] at absent
    cases absent
  · rcases Option.some.inj (bound.symm.trans rightBound) with rfl
    have slots := bindings.slots.get? (table, name)
    rw [TypeBinding.slot?] at present
    rw [present] at slots
    generalize found : binding.slots.get? (table, name) = slot at slots
    cases slots with
    | some slot =>
        cases slot with
        | pending leftFound otherFound _ _ promise =>
            exact ⟨binding, _, leftBound, bindings, found, _, _, leftFound, otherFound, promise⟩

/-- The callable that a waiting placeholder promises takes its slot in the second context. -/
theorem Agree.settle (agree : c.Agree left right) {member : PendingMember} {callable : Callable}
    {other : TypeBinding} {pending final : CallableHandle}
    (bound : right.context.binding? member.type = some other)
    (present : other.slot? member.table member.name = some (.unbound pending))
    (waiting : Registered right.context.callables pending (.placeholder member))
    (promise : c.callableOf? member = some callable)
    (made : Registered right.context.callables final callable) :
    c.Agree left { right with context := right.context.modifyBinding member.type fun binding =>
      { binding with slots := binding.slots.insert (member.table, member.name) (.bound final) } } := by
  rcases agree.waiting_slot bound present with
    ⟨binding, handle, leftBound, bindings, leftPresent, waitingMember, promised, found, waitingFound, promisedOf⟩
  rcases Callable.placeholder.inj (Option.some.inj (waiting.symm.trans waitingFound)) with rfl
  rcases Option.some.inj (promise.symm.trans promisedOf) with rfl
  have same : SameCallable left.context.callables right.context.callables handle final :=
    ⟨callable, isGenerated_of_callableOf? promise, found, made⟩
  simp only [Context.modifyBinding]
  rw [bound]
  refine { agree with bindings := agree.bindings.insert_right leftBound ?_ }
  exact { bindings with slots := bindings.slots.insert_right leftPresent (.made same) }

/-- Nothing is lost when a placeholder is replaced in its slot by what it promises. -/
theorem Advances.settle {member : PendingMember} {callable : Callable} {other : TypeBinding}
    {pending final : CallableHandle} (bound : right.context.binding? member.type = some other)
    (present : other.slot? member.table member.name = some (.unbound pending))
    (waiting : Registered right.context.callables pending (.placeholder member))
    (promise : c.callableOf? member = some callable)
    (made : Registered right.context.callables final callable) :
    c.Advances none (left, right)
      (left, { right with context := right.context.modifyBinding member.type fun binding =>
        { binding with slots := binding.slots.insert (member.table, member.name) (.bound final) } }) := by
  simp only [Context.modifyBinding]
  rw [bound]
  refine ⟨fun _ _ => id, fun _ _ => id, fun type binding _ typeBound => ?_⟩
  by_cases same : type = member.type
  · subst same
    rcases Option.some.inj (bound.symm.trans typeBound) with rfl
    refine ⟨_, FinMap.get?_insert_self _ _ _, fun table name slot slotPresent => ?_⟩
    by_cases sameSlot : (table, name) = (member.table, member.name)
    · rcases Prod.mk.inj sameSlot with ⟨rfl, rfl⟩
      rcases Option.some.inj (present.symm.trans slotPresent) with rfl
      refine ⟨.bound final, FinMap.get?_insert_self _ _ _, Or.inr ⟨pending, final, rfl, rfl, ?_⟩⟩
      intro waitingMember waitingFound
      rcases Callable.placeholder.inj (Option.some.inj (waiting.symm.trans waitingFound)) with rfl
      exact ⟨callable, promise, made⟩
    · exact ⟨slot, (FinMap.get?_insert_of_ne _ _ sameSlot).trans slotPresent, Or.inl rfl⟩
  · exact ⟨binding, (FinMap.get?_insert_of_ne _ _ same).trans typeBound, fun _ _ slot slotPresent =>
      ⟨slot, slotPresent, Or.inl rfl⟩⟩

/-- Only the second context adds a callable, if it can. -/
theorem Simulates.register_right (agree : c.Agree before.1 before.2) (callable : Callable)
    {action : Bridge ScriptError α} {next : CallableHandle → Bridge ScriptError β}
    {related : World → World → α → β → Prop}
    (continues : ∀ handle after, c.Agree before.1 after →
      KeepsCallables before.2.context.callables after.context.callables →
      after.context.bindings = before.2.context.bindings →
      Registered after.context.callables handle callable →
      c.Simulates inProgress (before.1, after) action (next handle) related) :
    c.Simulates inProgress before action (Bridge.asScript (Bridge.register callable) >>= next) related := by
  rcases Nat.lt_or_ge before.2.context.callables.size UInt32.size with room | full
  · have kept := KeepsCallables.push before.2.context.callables callable
    have fewer : before.1.context.callables.size ≤ (before.2.context.callables.push callable).size := by
      have := agree.fewer
      rw [Array.size_push]
      omega
    have run : exec (Bridge.asScript (Bridge.register callable)) before.2 =
        (.ok ⟨before.2.context.callables.size.toUInt32⟩,
          { before.2 with context := { before.2.context with
              callables := before.2.context.callables.push callable } }) := by
      rw [Bridge.asScript, exec_adapt, Host.exec_register_of_room room]
      rfl
    apply Simulates.after_right run ⟨fun _ _ => id, kept, fun _ binding _ bound =>
        ⟨binding, bound, fun _ _ slot present => ⟨slot, present, Or.inl rfl⟩⟩⟩
    have agree := agree.setCallables (fun _ _ => id) kept fewer
    exact continues _ _ agree kept rfl (registered_push room callable)
  · left
    rw [exec_bind, Bridge.asScript, exec_adapt, Host.exec_register_of_full full]
    exact ⟨⟨_, rfl⟩, full⟩

/-- The first use of a placeholder, or a later one, leads to the callable that it promises. -/
theorem simulates_resolveMember (agree : c.Agree before.1 before.2) {member : PendingMember}
    {callable : Callable} {binding : TypeBinding} {slot : MemberSlot} {other : CallableHandle}
    (waiting : Registered before.2.context.callables other (.placeholder member))
    (promise : c.callableOf? member = some callable)
    (bound : before.2.context.binding? member.type = some binding)
    (present : binding.slot? member.table member.name = some slot)
    (state : slot = .unbound other ∨
      ∃ final, slot = .bound final ∧ Registered before.2.context.callables final callable) :
    c.Simulates none before (pure () : Bridge ScriptError Unit) (c.host.resolveMember member)
      fun _ right _ final => Registered right.context.callables final callable := by
  unfold Host.resolveMember
  apply Simulates.after_right rfl (.refl _ _)
  dsimp only
  rw [bound]
  dsimp only
  rw [present]
  rcases state with rfl | ⟨final, rfl, made⟩
  · apply Simulates.after_right (exec_extensionMap agree.otherExtensions) (.of_same _ rfl rfl rfl)
    rcases Option.map_eq_some_iff.mp promise with ⟨found, listed, rfl⟩
    rw [agree.otherConfig]
    have sameExtensions : c.host.mergedExtensions c.config.onDemand = c.host.mergedExtensions c.config := rfl
    rw [sameExtensions, listed]
    dsimp only
    have collected : c.Agree before.1 { before.2 with context := { before.2.context with
        extensions := (c.host.mergedExtensions c.config).or before.2.context.extensions } } :=
      { agree with otherExtensions := eq_collect_of_merged agree.otherExtensions }
    refine .register_right collected _ fun final after agree kept sameBindings made => ?_
    have stillBound : after.context.binding? member.type = some binding := by
      rw [Context.binding?, sameBindings]
      exact bound
    have stillWaiting := kept _ _ waiting
    have settled := agree.settle stillBound present stillWaiting promise made
    refine .after_right rfl (.settle stillBound present stillWaiting promise made) ?_
    refine .after_right rfl (.of_same _ rfl rfl rfl) (.pure ?_ ?_)
    · exact { settled with }
    · dsimp only
      rw [Context.callables_modifyBinding]
      exact made
  · exact .pure agree made

/-- Calls of handles that stand for the same member do the same. -/
theorem simulates_invoke (agree : c.Agree before.1 before.2) {handle other : CallableHandle}
    (stands : c.StandsFor before.1.context before.2.context handle other) {arguments : List ScriptValue}
    (noFunctions : NoFunctions arguments) :
    c.Simulates none before (c.host.invoke handle arguments)
      (c.host.invoke other (retagAll c.rename arguments))
      c.SameDataAll := by
  cases stands with
  | made same =>
      rcases same with ⟨callable, generated, found, otherFound⟩
      simp only [Simulates]
      rw [Host.exec_invoke_of_generated found generated, Host.exec_invoke_of_generated otherFound generated]
      exact simulates_runMember agree callable noFunctions
  | @placeholder member callable _ _ found otherFound promise bound present state =>
      have generated := isGenerated_of_callableOf? promise
      simp only [Simulates]
      rw [Host.exec_invoke_of_generated found generated, Host.exec_invoke_of_placeholder otherFound]
      have resolved := simulates_resolveMember agree otherFound promise bound present state
      change c.Simulates none before (pure () >>= fun _ => c.host.runMember callable arguments)
        (c.host.runPlaceholder member (retagAll c.rename arguments)) c.SameDataAll
      apply resolved.bind
      intro _ final after agree _ made
      apply Simulates.after_right rfl (.refl _ _)
      have looked : after.2.context.callable? final = some callable := made
      rw [looked]
      exact simulates_runMember agree callable noFunctions

end Comparison

end ScriptBridge
