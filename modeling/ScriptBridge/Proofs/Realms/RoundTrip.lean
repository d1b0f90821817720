import ScriptBridge.Proofs.Conversion.RoundTrip
import ScriptBridge.Proofs.Realms.Typing

/-!
# Values that come back in every run

In every context of every run, what is handed out for a host value fits the
run-time type of the value, and is converted back to the value: a shared instance
to the same one, a copy to an equal one.
-/

namespace ScriptBridge

open Bridge

namespace Host

variable {host : Host} {world after : World} {value : HostValue} {pushed : ScriptValue}

/-- What handing out a value leads to: the value needs no proxy, or it gets one once its type is bound. -/
theorem exec_push_eq_ok (run : exec (host.push value) world = (.ok pushed, after)) :
    value.toScript? = some pushed ∨
      ∃ type middle, value.toScript? = none ∧ world.store.typeOf? value = some type ∧
        Relation.ReflTransGen host.BindStep world middle ∧
        pushed = .proxy (middle.context.cache.represent value type).1 ∧
        after.context.cache = (middle.context.cache.represent value type).2 := by
  rcases exec_pushBy_eq_ok run with ⟨simple, -⟩ | ⟨type, middle, proxied, typed, binding, same, rfl⟩
  · exact .inl simple
  · exact .inr ⟨type, middle, proxied, typed, (binds_ensureBoundBy binds_bindWith type).chain binding, same, rfl⟩

end Host

/-- A value that needs no proxy has a run-time type in every store, unless it is null. -/
theorem HostStore.typeOf?_of_toScript? (store : HostStore) {value : HostValue} {simple : ScriptValue}
    (notNull : value ≠ .null) (known : value.toScript? = some simple) : ∃ type, store.typeOf? value = some type := by
  cases value with
  | null => exact absurd rfl notNull
  | object reference => cases known
  | copied copy => cases known
  | _ => exact ⟨_, rfl⟩

/-- The proxy of a value goes by the run-time type of the value. -/
theorem IdentityCache.TypedIn.type_represent {cache : IdentityCache} {store : HostStore} (typed : cache.TypedIn store)
    (consistent : cache.Consistent) (faithful : cache.Faithful) {value : HostValue} {type : TypeRef}
    (carried : store.typeOf? value = some type) : (cache.represent value type).1.type = type := by
  rcases consistent.lookup?_represent value type with ⟨entry, live, dispatch⟩
  rcases resolve?_eq_some_iff.mp (faithful.resolve?_represent consistent value type) with ⟨-, found, known, same⟩
  obtain rfl := Option.some.inj (live.symm.trans known)
  have run := typed.represent consistent carried _ _ live
  rw [same, carried] at run
  rw [← dispatch, ← Option.some.inj run]

namespace Realm

/-- An action that adds no native code that leaves copies in the place of shared instances. -/
def Action.KeepsCopies : Action → Prop
  | .addNative code => code.KeepsCopies
  | _ => True

variable {actions : List Action} {place : Nat} {context : Context}

theorem natives_keepCopies (keep : ∀ action ∈ actions, action.KeepsCopies) :
    ∀ code ∈ (core.actAll actions).natives, code.KeepsCopies := by
  induction actions using List.reverseRecOn with
  | nil => simp [core]
  | append_singleton actions action ih =>
      rw [actAll_append, actAll_cons, actAll_nil]
      have last := keep action (by simp)
      refine natives_act (ih fun other member => keep other (by simp [member])) fun code same => ?_
      rw [same] at last
      exact last

/-- In every run, proxies are named by the identities of their values. -/
theorem faithful_cache (keep : ∀ action ∈ actions, action.KeepsCopies)
    (present : (core.actAll actions).contexts[place]? = some context) : context.cache.Faithful := by
  induction actions using List.reverseRecOn generalizing context with
  | nil => simp [core] at present
  | append_singleton actions action ih =>
      have earlier : ∀ other ∈ actions, other.KeepsCopies := fun other member => keep other (by simp [member])
      rw [actAll_append, actAll_cons, actAll_nil] at present
      rcases context_act action present with
        unchanged | ⟨-, config, -, opened⟩ | ⟨before, operation, found, -, performed⟩
      · exact ih earlier unchanged
      · rw [opened]
        exact IdentityCache.faithful_empty _
      · rw [performed]
        exact Host.faithful_of_steps (natives_keepCopies earlier)
          (Host.steps_perform operation ⟨(core.actAll actions).store, before, []⟩) (consistent_cache actions found)
          (ih earlier found)

/-- A type of copied instances is declared beside a native body, and a context is opened. -/
def pairDeclared : List Action :=
  [.declare (TypeDef.named "Game" "Pair" .copied), .addNative fun _ invocation => pure (invocation.complete .null),
    .openContext .standard]

end Realm

end ScriptBridge
