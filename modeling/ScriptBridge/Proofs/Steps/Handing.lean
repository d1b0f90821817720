import ScriptBridge.Proofs.Related
import ScriptBridge.Proofs.Steps.Typing
import ScriptBridge.Proofs.Steps.Oblivious
import ScriptBridge.Proofs.Steps.Resolving
import ScriptBridge.Proofs.Steps.Untouched

/-!
# Handing out the same

A member is oblivious of what is bound until it hands out its results: for these it binds
their types, which can make proxies for the constants of types on the way. So where other
types are bound a result may come with another number, but only if its proxy is new. It
is of the same type in any case, and stands for the same.
-/

namespace ScriptBridge

/-- A later cache: what was live is as it was, and what is new stands for a value of its type. -/
structure IdentityCache.Grown (store : HostStore) (cache later : IdentityCache) : Prop where
  consistent : later.Consistent
  tag : later.tag = cache.tag
  kept : ∀ key entry, cache.lookup? key = some entry → later.lookup? key = some entry
  added : ∀ key entry, later.lookup? key = some entry → cache.lookup? key = some entry ∨
    entry.identity = Identity.of? entry.value ∧ store.typeOf? entry.value = some entry.type

/-- Two proxies for the same value; unless they are one and the same, neither was live to begin with. -/
structure Proxy.Alike (start left right : IdentityCache) (proxy other : Proxy) : Prop where
  type : other.type = proxy.type
  tag : other.tag = proxy.tag
  same : start.owns proxy = true ∨ start.owns other = true → other = proxy
  value : ∃ value, left.resolve? proxy = some value ∧ right.resolve? other = some value

/-- Script values that are the same, up to the numbers of proxies that were not live to begin with. -/
inductive ScriptValue.Alike (start left right : IdentityCache) : ScriptValue → ScriptValue → Prop
  | same {value : ScriptValue} (noProxy : value.asProxy? = none) : Alike start left right value value
  | proxy {proxy other : Proxy} (alike : proxy.Alike start left right other) :
      Alike start left right (.proxy proxy) (.proxy other)

namespace IdentityCache

variable {store : HostStore} {start cache middle later : IdentityCache} {value : HostValue} {type : TypeRef}

theorem Grown.refl (consistent : cache.Consistent) : cache.Grown store cache :=
  ⟨consistent, rfl, fun _ _ => id, fun _ _ => Or.inl⟩

theorem Grown.trans (first : cache.Grown store middle) (second : middle.Grown store later) :
    cache.Grown store later where
  consistent := second.consistent
  tag := second.tag.trans first.tag
  kept key entry live := second.kept key entry (first.kept key entry live)
  added key entry live := (second.added key entry live).elim (first.added key entry) Or.inr

theorem Grown.represent (consistent : cache.Consistent) (typed : store.typeOf? value = some type) :
    cache.Grown store (cache.represent value type).2 where
  consistent := consistent.after (.represent value type)
  tag := by
    rcases cache.represent_cases value type with ⟨_, _, _, _, _, _, hit⟩ | ⟨-, miss⟩
    · rw [hit]
    · rw [miss, fill_tag]
  kept _ _ live := consistent.lookup?_represent_of_live live value type
  added key entry live := by
    rcases cache.represent_cases value type with ⟨_, _, _, _, _, _, hit⟩ | ⟨-, miss⟩
    · rw [hit] at live
      exact .inl live
    · rw [miss, lookup?_fill consistent.nextIsVacant] at live
      split at live
      next =>
        obtain rfl := Option.some.inj live
        exact .inr ⟨rfl, typed⟩
      next => exact .inl live

/-- The proxy of a value in a later cache: one that was live to begin with, or one that is new. -/
inductive Hands (start : IdentityCache) (value : HostValue) (type : TypeRef) (later : IdentityCache) : Proxy → Prop
  | known {identity : Identity} {key : ProxyKey} {entry : CacheEntry} (ofValue : Identity.of? value = some identity)
      (live : start.lookup? key = some entry) (named : entry.identity = some identity)
      (still : later.lookup? key = some entry) : Hands start value type later ⟨key, entry.type, start.tag⟩
  | new {key : ProxyKey} (unknown : ∀ identity, Identity.of? value = some identity →
        ∀ other entry, start.lookup? other = some entry → entry.identity ≠ some identity)
      (dead : start.lookup? key = none) (stands : later.get? key = some value) :
      Hands start value type later ⟨key, type, start.tag⟩

theorem Grown.hands (grown : start.Grown store cache) (typed : store.typeOf? value = some type) :
    start.Hands value type (cache.represent value type).2 (cache.represent value type).1 := by
  have dead {key : ProxyKey} (absent : cache.lookup? key = none) : start.lookup? key = none := by
    rw [Option.eq_none_iff_forall_ne_some] at absent ⊢
    exact fun entry live => absent entry (grown.kept key entry live)
  rcases cache.represent_cases value type with ⟨identity, key, entry, ofValue, named, live, hit⟩ | ⟨unknown, miss⟩
  · rcases (grown.consistent.byIdentity_iff identity key).mp named with ⟨same, liveToo, ofEntry⟩
    obtain rfl := Option.some.inj (live.symm.trans liveToo)
    rw [hit, grown.tag]
    by_cases old : start.lookup? key = some entry
    · exact .known ofValue old ofEntry live
    · rcases (grown.added key entry live).resolve_left old with ⟨ofNew, typedNew⟩
      obtain rfl := Identity.eq_of_of? ofValue (ofNew.symm.trans ofEntry)
      obtain rfl := Option.some.inj (typed.symm.trans typedNew)
      refine .new (fun other ofOther otherKey otherEntry liveOther namedOther => old ?_) ?_ ?_
      · obtain rfl := Option.some.inj (ofValue.symm.trans ofOther)
        have stillLive := grown.kept _ _ liveOther
        obtain rfl := grown.consistent.key_unique live ofEntry stillLive namedOther
        rwa [Option.some.inj (stillLive.symm.trans live)] at liveOther
      · refine Option.eq_none_iff_forall_ne_some.mpr fun other liveOther => old ?_
        rwa [Option.some.inj ((grown.kept _ _ liveOther).symm.trans live)] at liveOther
      · exact congrArg (Option.map _) live
  · have vacant := grown.consistent.nextIsVacant
    have proxy : (cache.fill value type).1 = ⟨(cache.fill value type).1.key, type, start.tag⟩ := by
      rw [← grown.tag, ← @fill_proxy_tag cache value type]
      rfl
    rw [miss, proxy]
    refine .new (fun identity ofValue other entry live named => ?_) (dead ?_) ?_
    · rw [ofValue, Option.bind_some, grown.consistent.live?_eq_none_iff] at unknown
      rw [(grown.consistent.byIdentity_iff identity other).mpr ⟨entry, grown.kept _ _ live, named⟩] at unknown
      cases unknown
    · rw [fill_key]
      exact grown.consistent.lookup?_next _
    · rw [get?, lookup?_fill vacant, if_pos rfl]
      rfl

theorem exists_lookup?_of_owns {proxy : Proxy} (owned : cache.owns proxy = true) :
    ∃ entry, cache.lookup? proxy.key = some entry := by
  rcases Option.isSome_iff_exists.mp owned with ⟨value, resolved⟩
  rcases resolve?_eq_some_iff.mp resolved with ⟨-, entry, live, -⟩
  exact ⟨entry, live⟩

theorem Hands.alike {left right : IdentityCache} {proxy other : Proxy} (consistent : start.Consistent)
    (leftTag : left.tag = start.tag) (rightTag : right.tag = start.tag) (hands : start.Hands value type left proxy)
    (otherHands : start.Hands value type right other) : proxy.Alike start left right other := by
  cases hands with
  | @known identity key entry ofValue live named still =>
      cases otherHands with
      | @known otherIdentity otherKey otherEntry otherOfValue otherLive otherNamed otherStill =>
          obtain rfl := Option.some.inj (ofValue.symm.trans otherOfValue)
          obtain rfl := consistent.key_unique live named otherLive otherNamed
          obtain rfl := Option.some.inj (live.symm.trans otherLive)
          refine ⟨rfl, rfl, fun _ => rfl, entry.value, ?_, ?_⟩
          · exact resolve?_eq_some_iff.mpr ⟨leftTag.symm, entry, still, rfl⟩
          · exact resolve?_eq_some_iff.mpr ⟨rightTag.symm, entry, otherStill, rfl⟩
      | new unknown => exact absurd named (unknown _ ofValue _ _ live)
  | @new key unknown dead stands =>
      cases otherHands with
      | known ofValue live named => exact absurd named (unknown _ ofValue _ _ live)
      | @new otherKey _ otherDead otherStands =>
          refine ⟨rfl, rfl, fun owned => ?_, value, ?_, ?_⟩
          · rcases owned with owned | owned
            · rcases exists_lookup?_of_owns owned with ⟨entry, live⟩
              cases dead.symm.trans live
            · rcases exists_lookup?_of_owns owned with ⟨entry, live⟩
              cases otherDead.symm.trans live
          · rw [resolve?, leftTag, if_pos rfl, stands]
          · rw [resolve?, rightTag, if_pos rfl, otherStands]

end IdentityCache

namespace ScriptValue.Alike

variable {store otherStore : HostStore} {start earlier left right : IdentityCache} {value other : ScriptValue}

/-- Whatever was live earlier still is. -/
theorem of_survives (alike : value.Alike start left right other) (survives : earlier.Survives start) :
    value.Alike earlier left right other := by
  cases alike with
  | same noProxy => exact .same noProxy
  | proxy alike =>
      exact .proxy ⟨alike.type, alike.tag, fun owned => alike.same (owned.imp (survives.owns _) (survives.owns _)),
        alike.value⟩

theorem grown {leftLater rightLater : IdentityCache} (alike : value.Alike start left right other)
    (leftGrown : left.Grown store leftLater) (rightGrown : right.Grown otherStore rightLater) :
    value.Alike start leftLater rightLater other := by
  cases alike with
  | same noProxy => exact .same noProxy
  | proxy alike =>
      rcases alike.value with ⟨value, resolved, otherResolved⟩
      rcases IdentityCache.resolve?_eq_some_iff.mp resolved with ⟨own, entry, live, stands⟩
      rcases IdentityCache.resolve?_eq_some_iff.mp otherResolved with ⟨otherOwn, otherEntry, otherLive, otherStands⟩
      refine .proxy ⟨alike.type, alike.tag, alike.same, value, ?_, ?_⟩
      · exact IdentityCache.resolve?_eq_some_iff.mpr
          ⟨own.trans leftGrown.tag.symm, entry, leftGrown.kept _ _ live, stands⟩
      · exact IdentityCache.resolve?_eq_some_iff.mpr
          ⟨otherOwn.trans rightGrown.tag.symm, otherEntry, rightGrown.kept _ _ otherLive, otherStands⟩

theorem eq_iff_of_noProxy {known : ScriptValue} (alike : value.Alike start left right other)
    (noProxy : known.asProxy? = none) : other = known ↔ value = known := by
  cases alike with
  | same => exact Iff.rfl
  | proxy => constructor <;> (rintro rfl; cases noProxy)

end ScriptValue.Alike

/-- Worlds that went apart, from a cache on, by what was bound in them. -/
structure World.Parted (start : IdentityCache) (world other : World) : Prop where
  store : other.store = world.store
  grown : start.Grown world.store world.context.cache
  otherGrown : start.Grown world.store other.context.cache

open Bridge

namespace Host

variable {host : Host} {start : IdentityCache} {world after left right leftAfter rightAfter : World}

theorem grown_of_bindSteps (steps : Relation.ReflTransGen host.BindStep world after)
    (consistent : world.context.cache.Consistent) :
    world.context.cache.Grown world.store after.context.cache := by
  induction steps with
  | refl => exact .refl consistent
  | tail steps step ih =>
      rcases step.cache_eq_or with same | ⟨value, type, typed, represented⟩
      · rw [same]
        exact ih
      · rw [represented]
        rw [store_eq_of_bindSteps steps] at typed
        exact ih.trans (.represent ih.consistent typed)

theorem parted_of_bindSteps (parted : World.Parted start left right)
    (steps : Relation.ReflTransGen host.BindStep left leftAfter)
    (otherSteps : Relation.ReflTransGen host.BindStep right rightAfter) : World.Parted start leftAfter rightAfter where
  store := by rw [store_eq_of_bindSteps steps, store_eq_of_bindSteps otherSteps, parted.store]
  grown := by
    rw [store_eq_of_bindSteps steps]
    exact parted.grown.trans (grown_of_bindSteps steps parted.grown.consistent)
  otherGrown := by
    have later := grown_of_bindSteps otherSteps parted.otherGrown.consistent
    rw [parted.store] at later
    rw [store_eq_of_bindSteps steps]
    exact parted.otherGrown.trans later

/-- Where a value is handed out, it is handed out alike. -/
theorem alike_of_push (parted : World.Parted start left right) (consistent : start.Consistent) {value : HostValue}
    {shown other : ScriptValue} (run : exec (host.push value) left = (.ok shown, leftAfter))
    (otherRun : exec (host.push value) right = (.ok other, rightAfter)) :
    shown.Alike start leftAfter.context.cache rightAfter.context.cache other := by
  rcases exec_pushBy_eq_ok run with ⟨simple, -⟩ | ⟨type, middle, proxied, typed, binding, rfl, rfl⟩
  · rcases exec_pushBy_eq_ok otherRun with ⟨otherSimple, -⟩ | ⟨_, _, otherProxied, -⟩
    · obtain rfl := Option.some.inj (simple.symm.trans otherSimple)
      exact .same (simple_of_toScript? simple).2
    · rw [simple] at otherProxied
      cases otherProxied
  · rcases exec_pushBy_eq_ok otherRun with ⟨otherSimple, -⟩ |
      ⟨otherType, otherMiddle, -, otherTyped, otherBinding, rfl, rfl⟩
    · rw [proxied] at otherSimple
      cases otherSimple
    · rw [parted.store, typed, Option.some.injEq] at otherTyped
      subst otherTyped
      have binds := @binds_ensureBoundBy host _ (fun type access mode => binds_bindWith type access mode) type
      have grown := parted.grown.trans (grown_of_bindSteps (binds.chain binding) parted.grown.consistent)
      have otherGrown := parted.otherGrown.trans
        (parted.store ▸ grown_of_bindSteps (binds.chain otherBinding) parted.otherGrown.consistent)
      have represented := IdentityCache.Grown.represent grown.consistent typed
      have otherRepresented := IdentityCache.Grown.represent otherGrown.consistent typed
      exact .proxy ((grown.hands typed).alike consistent (represented.tag.trans grown.tag)
        (otherRepresented.tag.trans otherGrown.tag) (otherGrown.hands typed))

/-- The values that a member hands out, in order. -/
def pushAll (host : Host) (values : List HostValue) : Bridge ScriptError (List ScriptValue) :=
  values.mapM fun value => Bridge.asScript (host.push value)

theorem binds_push (value : HostValue) : host.Binds (host.push value) :=
  binds_pushBy (fun type access mode => binds_bindWith type access mode) value

theorem binds_pushAll (values : List HostValue) : host.Binds (host.pushAll values) :=
  .mapM _ fun value => (binds_push value).adapt _

theorem exec_pushAll_cons (value : HostValue) (rest : List HostValue) (world : World) :
    exec (host.pushAll (value :: rest)) world = exec (do
      let shown ← Bridge.asScript (host.push value)
      let others ← host.pushAll rest
      return shown :: others) world := by
  rw [pushAll, List.mapM_cons]
  rfl

theorem exists_cause_of_pushAll {values : List HostValue} {error : ScriptError}
    (run : exec (host.pushAll values) world = (.error error, after)) : ∃ cause, error = .ofBindError cause := by
  induction values generalizing world with
  | nil => cases run
  | cons value rest ih =>
      rw [exec_pushAll_cons, exec_bind, Bridge.asScript, exec_adapt] at run
      cases pushed : exec (host.push value) world with
      | mk result middle =>
          rw [pushed] at run
          cases result with
          | error cause =>
              cases run
              exact ⟨cause, rfl⟩
          | ok shown =>
              simp only [Except.mapError] at run
              rw [exec_bind] at run
              cases later : exec (host.pushAll rest) middle with
              | mk laterResult last =>
                  rw [later] at run
                  cases laterResult with
                  | error _ =>
                      cases run
                      exact ih later
                  | ok others => cases run

/-- Values that are handed out one after the other are handed out alike. -/
theorem alike_of_pushAll (parted : World.Parted start left right) (consistent : start.Consistent)
    {values : List HostValue} {shown others : List ScriptValue}
    (run : exec (host.pushAll values) left = (.ok shown, leftAfter))
    (otherRun : exec (host.pushAll values) right = (.ok others, rightAfter)) :
    List.Forall₂ (ScriptValue.Alike start leftAfter.context.cache rightAfter.context.cache) shown others := by
  induction values generalizing left right shown others with
  | nil =>
      cases run
      cases otherRun
      exact .nil
  | cons value rest ih =>
      rw [exec_pushAll_cons] at run otherRun
      rcases exec_bind_eq_ok run with ⟨first, leftMiddle, pushed, restRun⟩
      rcases exec_bind_eq_ok otherRun with ⟨otherFirst, rightMiddle, otherPushed, otherRestRun⟩
      rcases exec_bind_eq_ok restRun with ⟨later, _, ran, final⟩
      rcases exec_bind_eq_ok otherRestRun with ⟨otherLater, _, otherRan, otherFinal⟩
      cases final
      cases otherFinal
      have pushed := exec_of_adapt_ok pushed
      have otherPushed := exec_of_adapt_ok otherPushed
      have goesOn := parted_of_bindSteps parted ((binds_push value).chain pushed) ((binds_push value).chain otherPushed)
      have grown := grown_of_bindSteps ((binds_pushAll rest).chain ran) goesOn.grown.consistent
      have otherGrown := grown_of_bindSteps ((binds_pushAll rest).chain otherRan) goesOn.otherGrown.consistent
      exact .cons ((alike_of_push parted consistent pushed otherPushed).grown grown otherGrown) (ih goesOn ran otherRan)

end Host

end ScriptBridge
