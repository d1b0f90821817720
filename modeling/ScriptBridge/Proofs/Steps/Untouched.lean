import ScriptBridge.Proofs.Steps.Operations
import ScriptBridge.Proofs.Steps.Typing

/-!
# Untouched worlds

What was there before is still there as it was: no instance and no static slot has
changed, and every live proxy stands for what it stood for. What operations do before
they run native code or write anything into the host leaves a world untouched. They
may bind types, make proxies and allocate instances.
-/

namespace ScriptBridge

/-- Every instance, every static slot and every live proxy of the world before is as it was. -/
structure World.Untouched (before after : World) : Prop where
  instances : ∀ reference object, before.store.instance? reference = some object →
    after.store.instance? reference = some object
  statics : after.store.statics = before.store.statics
  proxies : ∀ key entry, before.context.cache.lookup? key = some entry →
    after.context.cache.lookup? key = some entry

namespace World.Untouched

variable {before middle after : World}

theorem refl (world : World) : world.Untouched world := ⟨fun _ _ => id, rfl, fun _ _ => id⟩

theorem trans (first : before.Untouched middle) (second : middle.Untouched after) : before.Untouched after where
  instances reference object known := second.instances _ _ (first.instances reference object known)
  statics := second.statics.trans first.statics
  proxies key entry live := second.proxies _ _ (first.proxies key entry live)

theorem of_same (store : after.store = before.store) (cache : after.context.cache = before.context.cache) :
    before.Untouched after where
  instances _ _ known := by rwa [store]
  statics := by rw [store]
  proxies _ _ live := by rwa [cache]

/-- A new instance takes the place of none. -/
theorem allocate (world : World) (object : Instance HostValue) :
    world.Untouched { world with store := (world.store.allocate object).2 } where
  instances reference known present := by
    rw [HostStore.instance?_allocate, if_neg]
    · exact present
    · rintro rfl
      simp [HostStore.allocate, HostStore.instance?] at present
  statics := rfl
  proxies _ _ := id

end World.Untouched

/-- A new proxy takes the place of none. -/
theorem IdentityCache.Consistent.lookup?_represent_of_live {cache : IdentityCache} {key : ProxyKey} {entry : CacheEntry}
    (consistent : cache.Consistent) (live : cache.lookup? key = some entry) (value : HostValue) (type : TypeRef) :
    (cache.represent value type).2.lookup? key = some entry := by
  rcases cache.represent_cases value type with ⟨_, _, _, _, _, _, hit⟩ | ⟨-, miss⟩
  · rw [hit]
    exact live
  · rw [miss, lookup?_fill consistent.nextIsVacant, if_neg]
    · exact live
    · rintro rfl
      rw [fill_key, consistent.lookup?_next] at live
      cases live

namespace Host

variable {host : Host} {world after : World}

theorem BindStep.untouched (step : host.BindStep world after) (consistent : world.context.cache.Consistent) :
    world.Untouched after := by
  rcases step.cache_eq_or with same | ⟨value, type, -, represented⟩
  · exact .of_same step.store_eq same
  · refine ⟨fun _ _ known => by rwa [step.store_eq], by rw [step.store_eq], fun key entry live => ?_⟩
    rw [represented]
    exact consistent.lookup?_represent_of_live live value type

end Host

namespace Invariant

variable {host : Host} {start world after : World}

/-- The world that operations began with is untouched. -/
def untouched (start : World) : Invariant where
  holds world := world.context.cache.Consistent ∧ start.Untouched world
  excuses := fun _ => False

theorem untouched_start (consistent : start.context.cache.Consistent) : (untouched start).holds start :=
  ⟨consistent, .refl start⟩

theorem untouched_of_bindStep (step : host.BindStep world after) (holds : (untouched start).holds world) :
    (untouched start).holds after := by
  rcases holds with ⟨consistent, same⟩
  exact ⟨(Host.Step.bind step).consistent consistent, same.trans (step.untouched consistent)⟩

end Invariant

namespace Host

open Invariant

theorem respects_untouched (host : Host) (start : World) : host.RespectsPreparation (untouched start) :=
  respectsPreparation_of_bindSteps untouched_of_bindStep fun object holds =>
    ⟨holds.1, holds.2.trans (.allocate _ object)⟩

end Host

end ScriptBridge
