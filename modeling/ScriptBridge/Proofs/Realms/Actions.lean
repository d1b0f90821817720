import ScriptBridge.Context.Realm
import ScriptBridge.Proofs.Identity.Succession
import ScriptBridge.Proofs.Steps.Operations

/-!
# Runs of a realm

Everything that can happen to a realm, as data, so that statements can speak of
every run of it. A context stays at its place in the realm, and its identity
cache only ever answers requests.
-/

namespace ScriptBridge.Realm

open Bridge

/-- Something that happens to a realm. -/
inductive Action where
  | declare (definition : TypeDef)
  | addNative (code : NativeBody)
  | register (type : TypeRef)
  | make (literal : HostLiteral)
  | runMethod (method : Method) (invocation : Invocation)
  | openContext (config : Config)
  | perform (index : Nat) (operation : Operation)

/-- The realm after an action; an action that is refused leaves it as it was. -/
def act (realm : Realm) : Action → Realm
  | .declare definition => ((realm.declare? definition).map Prod.snd).getD realm
  | .addNative code => (realm.addNative code).2
  | .register type => (realm.register type).2
  | .make literal => (realm.make literal).2
  | .runMethod method invocation => (realm.runMethod method invocation).2
  | .openContext config => realm.openContext config
  | .perform index operation => ((realm.perform? index operation).map Prod.snd).getD realm

/-- The realm after a run of actions. -/
def actAll (realm : Realm) (actions : List Action) : Realm := actions.foldl act realm

@[simp]
theorem actAll_nil (realm : Realm) : realm.actAll [] = realm := rfl

@[simp]
theorem actAll_cons (realm : Realm) (action : Action) (rest : List Action) :
    realm.actAll (action :: rest) = (realm.act action).actAll rest := rfl

theorem actAll_append (realm : Realm) (first second : List Action) :
    realm.actAll (first ++ second) = (realm.actAll first).actAll second :=
  List.foldl_append

variable {realm : Realm} {index : Nat} {context : Context}

/-- What an operation on a context does to the world of the context. -/
theorem perform?_eq (present : realm.contexts[index]? = some context) (operation : Operation) :
    realm.perform? index operation =
      let run := exec (realm.host.perform operation) ⟨realm.store, context, []⟩
      some (⟨run.1, run.2.reports⟩,
        { realm with
          store := run.2.store
          contexts := realm.contexts.setIfInBounds index run.2.context }) := by
  rw [perform?, present]
  rfl

theorem act_perform (present : realm.contexts[index]? = some context) (operation : Operation) :
    realm.act (.perform index operation) =
      let run := exec (realm.host.perform operation) ⟨realm.store, context, []⟩
      { realm with
        store := run.2.store
        contexts := realm.contexts.setIfInBounds index run.2.context } := by
  simp only [act, perform?_eq present, Option.map_some, Option.getD_some]

/-- A context of a later realm is a context that just was opened, is as it was, or performed an operation. -/
theorem context_act (action : Action) {later : Context}
    (present : (realm.act action).contexts[index]? = some later) :
    realm.contexts[index]? = some later ∨
    (realm.contexts[index]? = none ∧ ∃ config, action = .openContext config ∧
      later = .fresh config ⟨realm.nextTag⟩) ∨
    ∃ context operation, realm.contexts[index]? = some context ∧ action = .perform index operation ∧
      later = (exec (realm.host.perform operation) ⟨realm.store, context, []⟩).2.context := by
  cases action with
  | declare definition =>
      left
      simp only [act, declare?, Option.map_map] at present
      cases declared : realm.system.declare? definition with
      | none => simpa [declared] using present
      | some result => simpa [declared] using present
  | addNative code => exact Or.inl present
  | register type => exact Or.inl present
  | make literal => exact Or.inl present
  | runMethod method invocation => exact Or.inl present
  | openContext config =>
      simp only [act, openContext, freshTag, Array.getElem?_push] at present
      split at present
      next last =>
        refine Or.inr (Or.inl ⟨by simp [last], config, rfl, (Option.some.inj present).symm⟩)
      next => exact Or.inl present
  | perform target operation =>
      cases found : realm.contexts[target]? with
      | none => simpa [act, perform?, found] using Or.inl present
      | some context =>
          rw [act_perform found] at present
          simp only [Array.getElem?_setIfInBounds] at present
          split at present
          next same =>
            subst same
            split at present
            next => exact Or.inr (Or.inr ⟨context, operation, found, rfl, (Option.some.inj present).symm⟩)
            next => cases present
          next => exact Or.inl present

/-- What every context has once it is opened, and keeps whatever happens, the contexts of every run have. -/
theorem forall_contexts_actAll {has : Realm → Context → Prop}
    (opened : ∀ (realm : Realm) config, has (realm.act (.openContext config)) (.fresh config ⟨realm.nextTag⟩))
    (aside : ∀ (realm : Realm) action context, has realm context → has (realm.act action) context)
    (performed : ∀ (realm : Realm) context operation, has realm context →
      has realm (exec (realm.host.perform operation) ⟨realm.store, context, []⟩).2.context)
    (actions : List Action) (index : Nat) (context : Context)
    (present : (core.actAll actions).contexts[index]? = some context) : has (core.actAll actions) context := by
  induction actions using List.reverseRecOn generalizing index context with
  | nil => simp [core] at present
  | append_singleton actions action ih =>
      rw [actAll_append, actAll_cons, actAll_nil] at present ⊢
      rcases context_act action present with
        unchanged | ⟨-, config, rfl, rfl⟩ | ⟨before, operation, found, -, rfl⟩
      · exact aside _ action context (ih index context unchanged)
      · exact opened _ config
      · exact aside _ action _ (performed _ before operation (ih index before found))

/-- What holds of the native bodies of a realm, and of each that an action adds, holds of all afterwards. -/
theorem natives_act {property : NativeBody → Prop} (all : ∀ code ∈ realm.natives, property code) {action : Action}
    (added : ∀ code, action = .addNative code → property code) :
    ∀ code ∈ (realm.act action).natives, property code := by
  cases action with
  | declare definition =>
      cases declared : realm.system.declare? definition with
      | none => simpa [act, declare?, declared] using all
      | some result => simpa [act, declare?, declared] using all
  | addNative code =>
      intro other member
      rcases List.mem_append.mp member with older | new
      · exact all other older
      · rw [List.mem_singleton.mp new]
        exact added code rfl
  | perform target operation =>
      cases found : realm.contexts[target]? with
      | none => simpa [act, perform?, found] using all
      | some context => simpa [act_perform found] using all
  | _ => exact all

theorem contexts_size_act (realm : Realm) (action : Action) :
    realm.contexts.size ≤ (realm.act action).contexts.size := by
  cases action with
  | declare definition =>
      cases declared : realm.system.declare? definition with
      | none => simp [act, declare?, declared]
      | some result => simp [act, declare?, declared]
  | addNative code => exact Nat.le_refl _
  | register type => exact Nat.le_refl _
  | make literal => exact Nat.le_refl _
  | runMethod method invocation => exact Nat.le_refl _
  | openContext config => simp [act, openContext, freshTag]
  | perform target operation =>
      cases found : realm.contexts[target]? with
      | none => simp [act, perform?, found]
      | some context => simp [act_perform found]

/-- A context stays at its place, and what becomes of its cache is what some requests make of it. -/
theorem exists_context_act (present : realm.contexts[index]? = some context) (action : Action) :
    ∃ later, (realm.act action).contexts[index]? = some later ∧
      ∃ requests, later.cache = context.cache.afterAll requests := by
  have bound := Nat.lt_of_lt_of_le (Array.getElem?_eq_some_iff.mp present).1 (contexts_size_act realm action)
  have found : (realm.act action).contexts[index]? = some (realm.act action).contexts[index] :=
    Array.getElem?_eq_getElem bound
  refine ⟨_, found, ?_⟩
  rcases context_act action found with
    unchanged | ⟨absent, -⟩ | ⟨before, operation, presentBefore, -, performed⟩
  · rw [present] at unchanged
    exact ⟨[], by rw [← Option.some.inj unchanged]; rfl⟩
  · rw [present] at absent
    cases absent
  · rw [present] at presentBefore
    rw [performed, ← Option.some.inj presentBefore]
    exact Host.requests_of_steps (Host.steps_perform operation ⟨realm.store, context, []⟩)

theorem exists_context_actAll (present : realm.contexts[index]? = some context) (actions : List Action) :
    ∃ later, (realm.actAll actions).contexts[index]? = some later ∧
      ∃ requests, later.cache = context.cache.afterAll requests := by
  induction actions generalizing realm context with
  | nil => exact ⟨context, present, [], rfl⟩
  | cons action rest ih =>
      rcases exists_context_act present action with ⟨middle, middlePresent, first, firstReached⟩
      rcases ih middlePresent with ⟨later, laterPresent, second, secondReached⟩
      refine ⟨later, laterPresent, first ++ second, ?_⟩
      rw [secondReached, firstReached, IdentityCache.afterAll_append]

/-- The cache of every context in a run is what some requests make of an empty one. -/
theorem exists_requests (actions : List Action)
    (present : (core.actAll actions).contexts[index]? = some context) :
    ∃ requests, context.cache = (IdentityCache.empty context.cache.tag).afterAll requests := by
  refine @forall_contexts_actAll (fun _ context =>
    ∃ requests, context.cache = (IdentityCache.empty context.cache.tag).afterAll requests)
    (fun _ _ => ⟨[], rfl⟩) (fun _ _ _ => id) ?_ actions index context present
  rintro realm before operation ⟨earlier, reached⟩
  rcases Host.requests_of_steps (Host.steps_perform operation ⟨realm.store, before, []⟩) with ⟨more, changed⟩
  have sameTag : (exec (realm.host.perform operation) ⟨realm.store, before, []⟩).2.context.cache.tag =
      before.cache.tag := by
    have consistent := (IdentityCache.consistent_empty before.cache.tag).afterAll earlier
    rw [← reached] at consistent
    rw [changed]
    exact (IdentityCache.succeeds_afterAll consistent more).tag_eq
  refine ⟨earlier ++ more, ?_⟩
  rw [sameTag, IdentityCache.afterAll_append, ← reached, changed]

theorem consistent_cache (actions : List Action)
    (present : (core.actAll actions).contexts[index]? = some context) : context.cache.Consistent := by
  rcases exists_requests actions present with ⟨requests, reached⟩
  rw [reached]
  exact (IdentityCache.consistent_empty _).afterAll requests

theorem nextTag_le_act (realm : Realm) (action : Action) : realm.nextTag ≤ (realm.act action).nextTag := by
  cases action with
  | declare definition =>
      cases declared : realm.system.declare? definition <;> simp [act, Realm.declare?, declared]
  | openContext config => exact Nat.le_succ _
  | perform target operation =>
      cases found : realm.contexts[target]? with
      | none => simp [act, perform?, found]
      | some context => simp [act_perform found]
  | _ => exact Nat.le_refl _

/-- The cache of a context keeps its tag; that of a new context has a new one. -/
theorem tag_act (consistent : ∀ (place : Nat) (context : Context), realm.contexts[place]? = some context →
      context.cache.Consistent) {action : Action} {place : Nat} {later : Context}
    (present : (realm.act action).contexts[place]? = some later) :
    (∃ context, realm.contexts[place]? = some context ∧ later.cache.tag = context.cache.tag) ∨
    (place = realm.contexts.size ∧ later.cache.tag.number = realm.nextTag ∧
      realm.nextTag < (realm.act action).nextTag) := by
  rcases context_act action present with
    unchanged | ⟨absent, config, rfl, opened⟩ | ⟨context, operation, found, rfl, performed⟩
  · exact Or.inl ⟨later, unchanged, rfl⟩
  · right
    have bound := (Array.getElem?_eq_some_iff.mp present).1
    have missing := Array.getElem?_eq_none_iff.mp absent
    rw [opened]
    refine ⟨?_, rfl, Nat.lt_succ_self _⟩
    simp only [act, openContext, freshTag, Array.size_push] at bound
    omega
  · left
    rcases Host.requests_of_steps
      (@Host.steps_perform realm.host operation ⟨realm.store, context, []⟩) with ⟨requests, reached⟩
    rw [performed, reached]
    exact ⟨context, found,
      (IdentityCache.succeeds_afterAll (consistent _ _ found) requests).tag_eq⟩

/-- The contexts of a realm mark their proxies with tags of their own, which were given before the next one. -/
structure TagsApart (realm : Realm) : Prop where
  below : ∀ (place : Nat) (context : Context), realm.contexts[place]? = some context →
    context.cache.tag.number < realm.nextTag
  injective : ∀ (place other : Nat) (context otherContext : Context),
    realm.contexts[place]? = some context → realm.contexts[other]? = some otherContext →
    context.cache.tag = otherContext.cache.tag → place = other

theorem TagsApart.act (apart : realm.TagsApart)
    (consistent : ∀ (place : Nat) (context : Context), realm.contexts[place]? = some context →
      context.cache.Consistent) (action : Action) : (realm.act action).TagsApart where
  below := by
    intro place later present
    have grows := nextTag_le_act realm action
    rcases tag_act consistent present with ⟨context, found, same⟩ | ⟨-, new, less⟩
    · have bound := apart.below _ _ found
      rw [same]
      omega
    · omega
  injective := by
    intro place other later otherLater present otherPresent same
    rcases tag_act consistent present with ⟨context, found, tag⟩ | ⟨last, new, -⟩
    · rcases tag_act consistent otherPresent with ⟨otherContext, otherFound, otherTag⟩ | ⟨-, otherNew, -⟩
      · exact apart.injective _ _ _ _ found otherFound (tag.symm.trans (same.trans otherTag))
      · have bound := apart.below _ _ found
        rw [← tag, same] at bound
        omega
    · rcases tag_act consistent otherPresent with ⟨otherContext, otherFound, otherTag⟩ | ⟨otherLast, -, -⟩
      · have bound := apart.below _ _ otherFound
        rw [← otherTag, ← same] at bound
        omega
      · rw [last, otherLast]

theorem tagsApart (actions : List Action) : (core.actAll actions).TagsApart := by
  induction actions using List.reverseRecOn with
  | nil => exact ⟨by simp [core], by simp [core]⟩
  | append_singleton actions action ih =>
      rw [actAll_append, actAll_cons, actAll_nil]
      exact ih.act (fun _ _ => consistent_cache actions) action

end ScriptBridge.Realm
