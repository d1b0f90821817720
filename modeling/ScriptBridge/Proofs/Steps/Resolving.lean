import ScriptBridge.Context.Calls
import ScriptBridge.Proofs.Steps.Installing

/-!
# Resolving members

What becomes of the world when the callable of a placeholder's member is made: it is
registered and takes the slot, or the slot has a callable already, or nothing
changes but what was collected. A call of a placeholder resolves it first.
-/

namespace ScriptBridge.Host

open Bridge

/-- The world after a callable was registered has it at the slot of a member, and counts it. -/
def settled (member : PendingMember) (handle : CallableHandle) (world : World) : World :=
  { world with context :=
      let context := world.context.modifyBinding member.type fun binding =>
        { binding with slots := binding.slots.insert (member.table, member.name) (.bound handle) }
      { context with counters := context.counters.countLazyMember } }

theorem callable?_settled (member : PendingMember) (handle other : CallableHandle) (world : World) :
    (settled member handle world).context.callable? other = world.context.callable? other := by
  rw [settled, Context.callable?, Context.callables_modifyBinding, Context.callable?]

theorem binding?_settled {member : PendingMember} {world : World} {binding : TypeBinding}
    (bound : world.context.binding? member.type = some binding) (handle : CallableHandle) :
    (settled member handle world).context.binding? member.type =
      some { binding with slots := binding.slots.insert (member.table, member.name) (.bound handle) } := by
  refine (Context.binding?_modifyBinding _ _).trans ?_
  rw [if_pos rfl, bound, Option.map_some]

/-- The member that a placeholder stands for, if the type still has it. -/
def pending? (host : Host) (context : Context) (member : PendingMember) : Option CatalogMember :=
  (Catalog.ofType host.system member.type member.access (host.extensionsIn context)).find? member.kind
    member.name member.isStatic

/-- What resolving a member leads to. -/
inductive Resolved (host : Host) (member : PendingMember) (before : World) :
    Except ScriptError CallableHandle × World → Prop
  | failed {error : ScriptError} {after : World}
      (same : after = before ∨ after = host.withExtensions before)
      (reason : before.context.binding? member.type = none ∨ host.pending? before.context member = none ∨
        UInt32.size ≤ before.context.callables.size) :
      Resolved host member before (.error error, after)
  | present {binding : TypeBinding} {handle : CallableHandle}
      (bound : before.context.binding? member.type = some binding)
      (made : binding.slot? member.table member.name = some (.bound handle)) :
      Resolved host member before (.ok handle, before)
  | made {binding : TypeBinding} {listed : CatalogMember} {handle : CallableHandle} {after : World}
      (bound : before.context.binding? member.type = some binding)
      (waits : ∀ handle, binding.slot? member.table member.name ≠ some (.bound handle))
      (found : host.pending? before.context member = some listed)
      (registered : (host.withExtensions before).OnlyRegistered after)
      (callable : Registered after.context.callables handle (.ofMember host.system member.type listed)) :
      Resolved host member before (.ok handle, settled member handle after)

variable {host : Host}

theorem resolved_resolveMember (member : PendingMember) (before : World) :
    host.Resolved member before (exec (host.resolveMember member) before) := by
  rw [resolveMember, exec_bind_of_ok (exec_context before)]
  cases bound : before.context.binding? member.type with
  | none => exact .failed (.inl rfl) (.inl bound)
  | some binding =>
      dsimp only
      split
      next handle made => exact .present bound made
      next waits =>
        rw [exec_bind_of_ok (host.exec_extensionMap before)]
        cases found : host.pending? before.context member with
        | none =>
            rw [pending?] at found
            rw [found]
            exact .failed (.inr rfl) (.inr (.inl found))
        | some listed =>
            rw [pending?] at found
            rw [found]
            dsimp only
            have unchanged : (host.withExtensions before).context.callables = before.context.callables := by
              rw [withExtensions]
              split <;> rfl
            rcases Nat.lt_or_ge (host.withExtensions before).context.callables.size UInt32.size with room | full
            · rw [exec_bind, asScript, exec_adapt, exec_register_of_room room]
              let middle := host.withExtensions before
              let added : World := { middle with context := { middle.context with
                callables := middle.context.callables.push (.ofMember host.system member.type listed) } }
              have only : middle.OnlyRegistered added := ⟨.push _ _, rfl, rfl⟩
              exact .made bound waits found only (registered_push room _)
            · rw [exec_bind, asScript, exec_adapt, exec_register_of_full full]
              exact .failed (.inr rfl) (.inr (.inr (unchanged ▸ full)))

variable {world : World} {handle : CallableHandle}

theorem exec_invoke_of_generated {callable : Callable}
    (found : Registered world.context.callables handle callable) (generated : callable.isGenerated = true)
    (arguments : List ScriptValue) :
    exec (host.invoke handle arguments) world = exec (host.runMember callable arguments) world := by
  have looked : world.context.callable? handle = some callable := found
  simp only [invoke, invokeWithin]
  cases host.callDepth <;> rw [exec_bind_of_ok (exec_context world), looked] <;> cases callable <;>
    first | rfl | exact Bool.noConfusion generated

theorem exec_invoke_of_placeholder {member : PendingMember}
    (found : Registered world.context.callables handle (.placeholder member)) (arguments : List ScriptValue) :
    exec (host.invoke handle arguments) world = exec (host.runPlaceholder member arguments) world := by
  have looked : world.context.callable? handle = some (.placeholder member) := found
  simp only [invoke, invokeWithin]
  cases host.callDepth <;> rw [exec_bind_of_ok (exec_context world), looked]

end ScriptBridge.Host
