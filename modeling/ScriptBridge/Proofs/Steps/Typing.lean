import ScriptBridge.Proofs.Host.Receivers
import ScriptBridge.Proofs.Host.RuntimeTypes
import ScriptBridge.Proofs.Identity.Consistency
import ScriptBridge.Proofs.Identity.Succession
import ScriptBridge.Proofs.Steps.Operations

/-!
# Proxies in the course of operations

The dispatch type of a live proxy is the run-time type of what it stands for.
Values get their proxies under their run-time types, and whatever later takes
the place of a value has the type of that value.
-/

namespace ScriptBridge

/-- Every live proxy goes by the run-time type of its value. -/
def IdentityCache.TypedIn (cache : IdentityCache) (store : HostStore) : Prop :=
  ∀ key entry, cache.lookup? key = some entry → store.typeOf? entry.value = some entry.type

namespace IdentityCache

variable {cache : IdentityCache} {store later : HostStore}

theorem typedIn_empty (tag : CacheTag) (store : HostStore) : (empty tag).TypedIn store := allLive_empty tag _

theorem TypedIn.extends (typed : cache.TypedIn store) (extended : later.Extends store) :
    cache.TypedIn later :=
  fun key entry live => extended _ _ (typed key entry live)

theorem TypedIn.represent (typed : cache.TypedIn store) (consistent : cache.Consistent) {value : HostValue}
    {type : TypeRef} (carried : store.typeOf? value = some type) :
    (cache.represent value type).2.TypedIn store :=
  AllLive.represent typed consistent.nextIsVacant carried

theorem TypedIn.update {key : ProxyKey} {entry : CacheEntry} {value : HostValue}
    (typed : cache.TypedIn store) (extended : later.Extends store) (live : cache.lookup? key = some entry)
    (kept : ∀ type, store.typeOf? entry.value = some type → later.typeOf? value = some type) :
    (cache.update key value).TypedIn later := by
  apply AllLive.update (typed.extends extended)
  intro found foundLive
  rcases Option.some.inj (live.symm.trans foundLive) with rfl
  exact kept entry.type (typed key entry live)

theorem TypedIn.release {key : ProxyKey} {value : HostValue} {changed : IdentityCache}
    (typed : cache.TypedIn store) (released : cache.release? key = some (value, changed)) :
    changed.TypedIn store :=
  AllLive.release typed released

end IdentityCache

namespace Host

variable {host : Host} {world after : World}

theorem BindStep.cache_eq_or (step : host.BindStep world after) :
    after.context.cache = world.context.cache ∨
      ∃ value type, world.store.typeOf? value = some type ∧
        after.context.cache = (world.context.cache.represent value type).2 := by
  cases step with
  | represent value type needsProxy typed => exact Or.inr ⟨value, type, typed, rfl⟩
  | rebind type change =>
      left
      rw [Context.modifyBinding_eq]
  | _ => exact Or.inl rfl

/-- A step changes no type of the store, and afterwards proxies go by the types of their values again. -/
theorem Step.typedIn (natives : ∀ code ∈ host.natives, code.KeepsTypes) (step : host.Step world after)
    (consistent : world.context.cache.Consistent) :
    after.store.Extends world.store ∧
      (world.context.cache.TypedIn world.store → after.context.cache.TypedIn after.store) := by
  have bodies (method : MethodDef) (invocation : Invocation) :=
    MethodBody.keepsTypes natives method.body host.system invocation world.store
  cases step with
  | bind step =>
      rw [step.store_eq]
      refine ⟨.refl _, fun typed => ?_⟩
      rcases step.cache_eq_or with same | ⟨value, type, run, represented⟩
      · rw [same]
        exact typed
      · rw [represented]
        exact typed.represent consistent run
  | outside step =>
      cases step with
      | native method invocation =>
          have extended := (bodies method invocation).1
          exact ⟨extended, fun typed => typed.extends extended⟩
      | nativeOn method invocation key entry completion written store live handed ran left =>
          rcases bodies method invocation with ⟨extended, kept⟩
          rw [NativeRun.exec, ran] at extended kept
          exact ⟨extended, fun typed => typed.update extended live (kept completion _ _ rfl handed left)⟩
      | allocate object =>
          have extended := world.store.extends_allocate object
          exact ⟨extended, fun typed => typed.extends extended⟩
      | writeField field target written value store wrote =>
          have extended := (HostStore.extends_writeField? wrote).1
          exact ⟨extended, fun typed => typed.extends extended⟩
      | writeFieldOn field key entry value written store live wrote =>
          rcases HostStore.extends_writeField? wrote with ⟨extended, kept⟩
          exact ⟨extended, fun typed => typed.update extended live (kept _ _ rfl rfl)⟩
      | writeElement reference position value store wrote =>
          have extended := HostStore.extends_writeElement? wrote
          exact ⟨extended, fun typed => typed.extends extended⟩
      | release key value cache released => exact ⟨.refl _, fun typed => typed.release released⟩
      | report => exact ⟨.refl _, id⟩
      | createTable => exact ⟨.refl _, id⟩
      | writeKey => exact ⟨.refl _, id⟩
  | unbind => exact ⟨.refl _, id⟩

theorem typedIn_of_steps (natives : ∀ code ∈ host.natives, code.KeepsTypes)
    (steps : Relation.ReflTransGen host.Step world after)
    (consistent : world.context.cache.Consistent) :
    after.store.Extends world.store ∧
      (world.context.cache.TypedIn world.store → after.context.cache.TypedIn after.store) := by
  induction steps with
  | refl => exact ⟨.refl _, id⟩
  | tail earlier step ih =>
      rcases requests_of_steps earlier with ⟨requests, reached⟩
      have middle := consistent.afterAll requests
      rw [← reached] at middle
      rcases step.typedIn natives middle with ⟨extended, typed⟩
      exact ⟨extended.trans ih.1, fun start => typed (ih.2 start)⟩

end Host

/-!
## Identities in the course of operations

What a live proxy stands for has the identity that the proxy was made under. Only
copies take the place of what a proxy stood for, and copies have no identity.
-/

/-- Every live proxy is named by the identity of its value. -/
def IdentityCache.Faithful (cache : IdentityCache) : Prop :=
  ∀ key entry, cache.lookup? key = some entry → entry.identity = Identity.of? entry.value

theorem Identity.of?_copied {value : HostValue} (copied : value.isCopied = true) : Identity.of? value = none := by
  cases value <;> first | rfl | cases copied

/-- A value of an identity is given by it. -/
theorem Identity.eq_of_of? {value other : HostValue} {identity : Identity} (known : Identity.of? value = some identity)
    (otherKnown : Identity.of? other = some identity) : value = other := by
  cases value <;> cases known <;> cases other <;> cases otherKnown <;> rfl

namespace IdentityCache

variable {cache : IdentityCache}

theorem faithful_empty (tag : CacheTag) : (empty tag).Faithful := allLive_empty tag _

theorem Faithful.represent (faithful : cache.Faithful) (consistent : cache.Consistent) (value : HostValue)
    (type : TypeRef) : (cache.represent value type).2.Faithful :=
  AllLive.represent faithful consistent.nextIsVacant rfl

theorem Faithful.update {key : ProxyKey} {entry : CacheEntry} {value : HostValue} (faithful : cache.Faithful)
    (live : cache.lookup? key = some entry) (copied : value.isCopied = true) (copy : entry.value.isCopied = true) :
    (cache.update key value).Faithful := by
  apply AllLive.update faithful
  intro found foundLive
  rcases Option.some.inj (live.symm.trans foundLive) with rfl
  rw [faithful key entry live, Identity.of?_copied copy, Identity.of?_copied copied]

theorem Faithful.release {key : ProxyKey} {value : HostValue} {changed : IdentityCache} (faithful : cache.Faithful)
    (released : cache.release? key = some (value, changed)) : changed.Faithful :=
  AllLive.release faithful released

end IdentityCache

namespace Host

variable {host : Host} {world after : World}

theorem BindStep.faithful (step : host.BindStep world after) (consistent : world.context.cache.Consistent)
    (faithful : world.context.cache.Faithful) : after.context.cache.Faithful := by
  cases step with
  | represent value type needsProxy typed => exact faithful.represent consistent value type
  | rebind type change =>
      rw [Context.modifyBinding_eq]
      exact faithful
  | _ => exact faithful

theorem Step.faithful (natives : ∀ code ∈ host.natives, code.KeepsCopies) (step : host.Step world after)
    (consistent : world.context.cache.Consistent) (faithful : world.context.cache.Faithful) :
    after.context.cache.Faithful := by
  cases step with
  | bind step => exact step.faithful consistent faithful
  | outside step =>
      cases step with
      | nativeOn method invocation key entry completion written store live handed ran left copied =>
          have kept := MethodBody.keepsCopies natives method.body host.system invocation world.store
          exact faithful.update live copied (kept completion _ _ (congrArg Prod.fst ran) handed left copied)
      | writeFieldOn field key entry value written store live wrote copied =>
          exact faithful.update live copied (HostStore.isCopied_of_writeField? wrote copied)
      | release key value cache released => exact faithful.release released
      | _ => exact faithful
  | unbind => exact faithful

/-- In the course of operations, proxies stay named by the identities of their values. -/
theorem faithful_of_steps (natives : ∀ code ∈ host.natives, code.KeepsCopies)
    (steps : Relation.ReflTransGen host.Step world after) (consistent : world.context.cache.Consistent)
    (faithful : world.context.cache.Faithful) : after.context.cache.Faithful := by
  induction steps with
  | refl => exact faithful
  | tail earlier step ih =>
      rcases requests_of_steps earlier with ⟨requests, reached⟩
      have middle := consistent.afterAll requests
      rw [← reached] at middle
      exact step.faithful natives middle ih

end Host

end ScriptBridge
