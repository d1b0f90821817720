import ScriptBridge.Proofs.Conversion.Soundness
import ScriptBridge.Proofs.Realms.Actions

/-!
# Conversion in every run

In every run of a realm whose native bodies keep types, the proxies of each
context go by the run-time types of their values, so that the compatibility test
is sound for the conversion.
-/

namespace ScriptBridge

mutual

/-- Making the value of a description only adds instances. -/
theorem HostLiteral.extends_make (system : TypeSystem) (literal : HostLiteral) (store : HostStore) :
    ((literal.make system).run store).2.Extends store := by
  cases literal with
  | existing value => exact .refl store
  | newObject type => exact store.extends_allocate _
  | newCopy type => exact .refl store
  | defaultOf type => exact .refl store
  | array element items =>
      exact .trans (HostStore.extends_allocate _ _) (HostLiteral.extends_makeAll system items store)

/-- Making the values of descriptions only adds instances. -/
theorem HostLiteral.extends_makeAll (system : TypeSystem) (literals : List HostLiteral) (store : HostStore) :
    ((HostLiteral.makeAll system literals).run store).2.Extends store := by
  cases literals with
  | nil => exact .refl store
  | cons literal rest =>
      exact .trans (HostLiteral.extends_makeAll system rest _) (HostLiteral.extends_make system literal store)

end

namespace IdentityCache

variable {cache : IdentityCache} {proxy : Proxy}

/-- A history of the cache in which the proxy was given to a value. -/
def Minted (cache : IdentityCache) (proxy : Proxy) : Prop :=
  ∃ earlier value type later,
    cache = (empty cache.tag).afterAll (earlier ++ .represent value type :: later) ∧
      proxy = (((empty cache.tag).afterAll earlier).represent value type).1

theorem Minted.tag_eq (minted : cache.Minted proxy) : proxy.tag = cache.tag := by
  rcases minted with ⟨earlier, value, type, later, -, rfl⟩
  have tagged : ((empty cache.tag).afterAll earlier).tag = cache.tag :=
    (succeeds_afterAll (consistent_empty cache.tag) earlier).tag_eq
  rcases represent_cases ((empty cache.tag).afterAll earlier) value type with
    ⟨_, _, _, _, _, _, hit⟩ | ⟨-, miss⟩
  · rw [hit]
    exact tagged
  · rw [miss]
    simpa [fill, takeSlot_eq] using tagged

/-- The proxy of a value is live, under the dispatch type that it carries. -/
theorem Consistent.lookup?_represent (consistent : cache.Consistent) (value : HostValue) (type : TypeRef) :
    ∃ entry, (cache.represent value type).2.lookup? (cache.represent value type).1.key = some entry ∧
      entry.type = (cache.represent value type).1.type := by
  rcases represent_cases cache value type with ⟨_, key, entry, _, _, live, hit⟩ | ⟨-, miss⟩
  · rw [hit]
    exact ⟨entry, live, rfl⟩
  · rw [miss]
    exact ⟨entryFor value type, by rw [lookup?_fill consistent.nextIsVacant, if_pos rfl], rfl⟩

/-- As long as the proxy of a value is live, its dispatch type is the one that it carries. -/
theorem Consistent.type_of_represent (consistent : cache.Consistent) (value : HostValue) (type : TypeRef)
    {later : IdentityCache} (succeeds : later.Succeeds (cache.represent value type).2)
    (few : later.FewReleases) {entry : CacheEntry}
    (live : later.lookup? (cache.represent value type).1.key = some entry) :
    entry.type = (cache.represent value type).1.type := by
  rcases consistent.lookup?_represent value type with ⟨made, madeLive, madeType⟩
  generalize cache.represent value type = represented at *
  rcases represented with ⟨proxy, before⟩
  dsimp only at *
  by_cases untouched : later.releasesAt proxy.key.index = before.releasesAt proxy.key.index
  · rcases succeeds.kept _ made madeLive untouched with ⟨newer, newerLive, newerType, -⟩
    rcases Option.some.inj (live.symm.trans newerLive) with rfl
    exact newerType.trans madeType
  · have fewer := succeeds.releases_le proxy.key.index
    have spent : later.IsSpent proxy.key := ⟨_, generation_of_live madeLive, by omega⟩
    rw [spent.lookup? few] at live
    cases live

/-- A proxy of the cache that is live still goes by the type that it was made under. -/
theorem Minted.type_eq (minted : cache.Minted proxy) (few : cache.FewReleases) {entry : CacheEntry}
    (live : cache.lookup? proxy.key = some entry) : entry.type = proxy.type := by
  rcases minted with ⟨earlier, value, type, later, history, rfl⟩
  have before := (consistent_empty cache.tag).afterAll earlier
  rw [afterAll_append, afterAll_cons] at history
  have succeeds := succeeds_afterAll (before.after (.represent value type)) later
  rw [← history] at succeeds
  exact before.type_of_represent value type succeeds few live

end IdentityCache

namespace Realm

open Bridge

/-- An action that declares no primitive type and adds no native code that changes types. -/
def Action.KeepsTypes : Action → Prop
  | .declare definition => definition.primitive? = none
  | .addNative code => code.KeepsTypes
  | _ => True

/-- What holds of a realm in the course of actions that keep types. -/
structure Sound (realm : Realm) : Prop where
  standard : realm.system.Standard
  natives : ∀ code ∈ realm.natives, code.KeepsTypes
  consistent : ∀ (place : Nat) (context : Context), realm.contexts[place]? = some context →
    context.cache.Consistent
  typed : ∀ (place : Nat) (context : Context), realm.contexts[place]? = some context →
    context.cache.TypedIn realm.store
  tag_lt : ∀ (place : Nat) (context : Context), realm.contexts[place]? = some context →
    context.cache.tag.number < realm.nextTag
  tag_injective : ∀ (place other : Nat) (context otherContext : Context),
    realm.contexts[place]? = some context → realm.contexts[other]? = some otherContext →
    context.cache.tag = otherContext.cache.tag → place = other

variable {realm : Realm}

theorem sound_core : core.Sound where
  standard := TypeSystem.standard_core
  natives := by simp [core]
  consistent := by simp [core]
  typed := by simp [core]
  tag_lt := by simp [core]
  tag_injective := by simp [core]

/-- An action changes no run-time type. -/
theorem Sound.extends_act (sound : realm.Sound) (action : Action) :
    (realm.act action).store.Extends realm.store := by
  cases action with
  | declare definition =>
      cases declared : realm.system.declare? definition with
      | none => simpa [act, Realm.declare?, declared] using HostStore.Extends.refl realm.store
      | some result =>
          simp only [act, Realm.declare?, declared, Option.map_some, Option.getD_some]
          exact HostStore.extends_of_objects rfl
  | addNative code => exact .refl _
  | register type => exact .refl _
  | make literal => exact HostLiteral.extends_make realm.system literal realm.store
  | runMethod method invocation =>
      exact (MethodBody.keepsTypes sound.natives method.definition.body realm.system invocation
        realm.store).1
  | openContext config => exact .refl _
  | perform target operation =>
      cases found : realm.contexts[target]? with
      | none => simpa [act, perform?, found] using HostStore.Extends.refl realm.store
      | some context =>
          rw [act_perform found]
          exact (Host.typedIn_of_steps sound.natives
            (Host.steps_perform operation ⟨realm.store, context, []⟩) (sound.consistent _ _ found)).1

theorem Sound.standard_act (sound : realm.Sound) {action : Action} (keeps : action.KeepsTypes) :
    (realm.act action).system.Standard := by
  cases action with
  | declare definition =>
      cases declared : realm.system.declare? definition with
      | none => simpa [act, Realm.declare?, declared] using sound.standard
      | some result =>
          simp only [act, Realm.declare?, declared, Option.map_some, Option.getD_some]
          exact sound.standard.declare? keeps declared
  | perform target operation =>
      cases found : realm.contexts[target]? with
      | none => simpa [act, perform?, found] using sound.standard
      | some context => simpa [act_perform found] using sound.standard
  | _ => exact sound.standard

theorem Sound.natives_act (sound : realm.Sound) {action : Action} (keeps : action.KeepsTypes) :
    ∀ code ∈ (realm.act action).natives, code.KeepsTypes :=
  Realm.natives_act sound.natives fun _ same => by
    rw [same] at keeps
    exact keeps

theorem Sound.cache_act (sound : realm.Sound) {action : Action} {place : Nat} {later : Context}
    (present : (realm.act action).contexts[place]? = some later) :
    later.cache.Consistent ∧ later.cache.TypedIn (realm.act action).store := by
  rcases context_act action present with
    unchanged | ⟨-, config, -, opened⟩ | ⟨context, operation, found, rfl, performed⟩
  · exact ⟨sound.consistent _ _ unchanged, (sound.typed _ _ unchanged).extends (sound.extends_act action)⟩
  · rw [opened]
    exact ⟨IdentityCache.consistent_empty _, IdentityCache.typedIn_empty _ _⟩
  · have steps := @Host.steps_perform realm.host operation ⟨realm.store, context, []⟩
    have consistent := sound.consistent _ _ found
    rcases Host.requests_of_steps steps with ⟨requests, reached⟩
    rw [act_perform found, performed]
    refine ⟨?_, (Host.typedIn_of_steps sound.natives steps consistent).2 (sound.typed _ _ found)⟩
    rw [reached]
    exact consistent.afterAll requests

theorem Sound.act (sound : realm.Sound) {action : Action} (keeps : action.KeepsTypes) :
    (realm.act action).Sound where
  standard := sound.standard_act keeps
  natives := sound.natives_act keeps
  consistent := fun _ _ present => (sound.cache_act present).1
  typed := fun _ _ present => (sound.cache_act present).2
  tag_lt := (TagsApart.act ⟨sound.tag_lt, sound.tag_injective⟩ sound.consistent action).below
  tag_injective := (TagsApart.act ⟨sound.tag_lt, sound.tag_injective⟩ sound.consistent action).injective

theorem Sound.actAll (sound : realm.Sound) {actions : List Action}
    (keep : ∀ action ∈ actions, action.KeepsTypes) : (realm.actAll actions).Sound := by
  induction actions generalizing realm with
  | nil => exact sound
  | cons action rest ih =>
      exact ih (sound.act (keep action (by simp))) fun other member => keep other (by simp [member])

/-- A context is opened beside a native body, and a type is handed to its script. -/
def handingType : List Action :=
  [.addNative fun _ invocation => pure (invocation.complete .null), .openContext .standard,
    .perform 0 (.push (.type .object))]

end Realm

end ScriptBridge
