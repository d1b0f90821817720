import ScriptBridge.Proofs.Maps
import ScriptBridge.Proofs.Steps.Outcomes

/-!
# Where a type was dropped

A context without one of its types differs from what it was in the binding of that type
only. The members of the other types are made in it as before, and calls of them have the
same outcome.
-/

namespace ScriptBridge

open Bridge

/-- The context after it was told to drop a type. -/
def Context.without (context : Context) (type : TypeRef) : Context :=
  { context with
    bindings := context.bindings.erase type
    namespaces := if context.isBound type then context.namespaces.forget type else context.namespaces }

/-- The world after its context was told to drop a type. -/
def World.without (world : World) (type : TypeRef) : World := { world with context := world.context.without type }

namespace Context

variable {type other : TypeRef}

theorem binding?_without (context : Context) (type other : TypeRef) :
    (context.without type).binding? other = if other = type then none else context.binding? other :=
  FinMap.get?_erase _ _ _

theorem without_of_not_isBound {context : Context} (unbound : context.isBound type = false) :
    context.without type = context := by
  have absent : context.bindings.get? type = none :=
    Option.isNone_iff_eq_none.mp (Option.isSome_eq_false_iff.mp unbound)
  rw [without, if_neg (Bool.eq_false_iff.mp unbound), FinMap.erase_of_get?_eq_none absent]

theorem modifyBinding_without (context : Context) (different : other ≠ type) (change : TypeBinding → TypeBinding) :
    (context.without type).modifyBinding other change = (context.modifyBinding other change).without type := by
  have same : (context.modifyBinding other change).isBound type = context.isBound type := isBound_modifyBinding ..
  rw [modifyBinding, binding?_without, if_neg different]
  rw [modifyBinding] at same ⊢
  cases found : context.binding? other with
  | none => rfl
  | some binding =>
      rw [found] at same
      simp only [without, same, FinMap.erase_insert_of_ne _ _ different]

end Context

variable {ε α : Type} {type : TypeRef}

/-- What is oblivious of what is bound does the same where a type was dropped. -/
theorem Oblivious.spares {action : Bridge ε α} (oblivious : Oblivious action) :
    CommutesWith (·.without type) action where
  same world := by
    have unchanged := (oblivious world.context.bindings world.context.namespaces).same world
    rw [show world.rebound world.context.bindings world.context.namespaces = world from rfl] at unchanged
    refine ((oblivious _ _).same world).trans (Prod.ext rfl ?_)
    generalize exec action world = run at unchanged ⊢
    rw [unchanged]
    rfl
  survives world := (oblivious world.context.bindings world.context.namespaces).survives world

/-- Another type may be bound in other ways. -/
theorem commutesWith_rebind {other : TypeRef} (different : other ≠ type) (change : TypeBinding → TypeBinding) :
    CommutesWith (·.without type)
      (Bridge.modifyContext fun context => context.modifyBinding other change : Bridge ε Unit) where
  same world := by
    rw [exec_modifyContext, exec_modifyContext, World.without, Context.modifyBinding_without _ different]
    rfl
  survives world consistent := by
    rw [exec_modifyContext, Context.modifyBinding_eq]
    exact .refl consistent

namespace Host

variable {host : Host} {world : World}

theorem exec_unbind (world : World) (type : TypeRef) :
    exec (unbind type : Bridge ε Bool) world = (.ok (world.context.isBound type), world.without type) := by
  rw [World.without]
  cases bound : world.context.isBound type with
  | true => simp [unbind, exec_bind, bound, exec_map, Except.map, Context.without]
  | false => simp [unbind, exec_bind, bound, Context.without_of_not_isBound bound]

theorem spares_resolveMember {member : PendingMember} (different : member.type ≠ type) :
    CommutesWith (·.without type) (host.resolveMember member) := by
  have sameBinding (context : Context) : (context.without type).binding? member.type = context.binding? member.type := by
    rw [Context.binding?_without, if_neg different]
  refine .context (fun world => by simp only [World.without, sameBinding]) fun context => ?_
  cases context.binding? member.type with
  | none => exact (Oblivious.throw _).spares
  | some binding =>
      dsimp only
      split
      · exact (Oblivious.pure _).spares
      · refine .bind oblivious_extensionMap.spares fun extensions => ?_
        split
        · exact (Oblivious.throw _).spares
        · refine .bind ((Oblivious.register _).adapt _).spares fun handle => .bind (commutesWith_rebind different _) fun _ => ?_
          exact .bind (Oblivious.count _).spares fun _ => (Oblivious.pure _).spares

/-- A placeholder of a type that was not dropped has the same outcome. -/
theorem accord_runPlaceholder {member : PendingMember} (different : member.type ≠ type) (arguments : List ScriptValue)
    (consistent : world.context.cache.Consistent) :
    Accord (ResultsAlike world.context.cache) (exec (host.runPlaceholder member arguments) world)
      (exec (host.runPlaceholder member arguments) (world.without type)) := by
  have spares : CommutesWith (·.without type) (host.resolveMember member) := spares_resolveMember different
  refine .after (·.without type) (spares.same world) (fun _ => rfl) fun handle middle run => ?_
  have survives := spares.survives world consistent
  rw [run] at survives
  rw [exec_bind_of_ok (exec_context _), exec_bind_of_ok (exec_context _)]
  rw [show (middle.without type).context.callable? handle = middle.context.callable? handle from rfl]
  cases middle.context.callable? handle with
  | none => exact fun _ _ => ⟨rfl, .error _⟩
  | some callable =>
      exact ((yields_runMember callable arguments).accord middle survives.consistent _ _).mono fun _ _ _ _ alike =>
        alike.imp fun _ _ each => each.of_survives survives

/-- What is called belongs to no type that was dropped. -/
theorem accord_invoke {handle : CallableHandle} {callable : Callable}
    (found : Registered world.context.callables handle callable)
    (apart : callable.isGenerated = true ∨ ∃ member, callable = .placeholder member ∧ member.type ≠ type)
    (arguments : List ScriptValue) (consistent : world.context.cache.Consistent) :
    Accord (ResultsAlike world.context.cache) (exec (host.invoke handle arguments) world)
      (exec (host.invoke handle arguments) (world.without type)) := by
  have foundToo : Registered (world.without type).context.callables handle callable := found
  rcases apart with generated | ⟨member, rfl, different⟩
  · rw [exec_invoke_of_generated found generated, exec_invoke_of_generated foundToo generated]
    exact (yields_runMember callable arguments).accord world consistent _ _
  · rw [exec_invoke_of_placeholder found, exec_invoke_of_placeholder foundToo]
    exact accord_runPlaceholder different arguments consistent

end Host

end ScriptBridge
