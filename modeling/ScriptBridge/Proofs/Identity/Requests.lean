import ScriptBridge.Identity.Cache

/-!
# Requests to an identity cache

What can be asked of an identity cache, as data, so that statements can speak of
every run of a cache. The lemmas say which slots, free slots and keys a cache has
after it filled or emptied a slot; a hit and a request with a dead key change
neither.
-/

namespace ScriptBridge

/-- Something to ask of an identity cache. -/
inductive CacheRequest where
  | represent (value : HostValue) (type : TypeRef)
  | update (key : ProxyKey) (value : HostValue)
  | release (key : ProxyKey)
  | releaseInstance (reference : ObjectRef)

/-- Whether the request asks for a proxy. -/
def CacheRequest.isRepresent : CacheRequest → Bool
  | .represent _ _ => true
  | _ => false

namespace IdentityCache

/-- The cache after a request; a request that is refused leaves it as it was. -/
def after (cache : IdentityCache) : CacheRequest → IdentityCache
  | .represent value type => (cache.represent value type).2
  | .update key value => cache.update key value
  | .release key => ((cache.release? key).map Prod.snd).getD cache
  | .releaseInstance reference => (cache.releaseInstance? reference).getD cache

/-- The cache after a run of requests. -/
def afterAll (cache : IdentityCache) (requests : List CacheRequest) : IdentityCache :=
  requests.foldl after cache

@[simp]
theorem afterAll_nil (cache : IdentityCache) : cache.afterAll [] = cache := rfl

@[simp]
theorem afterAll_cons (cache : IdentityCache) (request : CacheRequest) (rest : List CacheRequest) :
    cache.afterAll (request :: rest) = (cache.after request).afterAll rest := rfl

theorem afterAll_append (cache : IdentityCache) (first second : List CacheRequest) :
    cache.afterAll (first ++ second) = (cache.afterAll first).afterAll second :=
  List.foldl_append

/-- The slot that is filled next. -/
def nextIndex (cache : IdentityCache) : Nat := cache.free.headD cache.slots.size

/-- The entry of a value under a dispatch type. -/
def entryFor (value : HostValue) (type : TypeRef) : CacheEntry := ⟨value, type, Identity.of? value⟩

/-- The slot that is filled next is empty, or it is to be added. -/
def NextIsVacant (cache : IdentityCache) : Prop :=
  cache.free ≠ [] → ∃ slot, cache.slots[cache.nextIndex]? = some slot ∧ slot.entry = none

variable {cache : IdentityCache} {value : HostValue} {type : TypeRef}

/-- A hit gives the live key of the identity and only counts; everything else fills a slot. -/
theorem represent_cases (cache : IdentityCache) (value : HostValue) (type : TypeRef) :
    (∃ identity key entry, Identity.of? value = some identity ∧
      cache.byIdentity.get? identity = some key ∧ cache.lookup? key = some entry ∧
      cache.represent value type =
        (⟨key, entry.type, cache.tag⟩, { cache with counters := cache.counters.countHit })) ∨
    ((Identity.of? value).bind cache.live? = none ∧
      cache.represent value type = cache.fill value type) := by
  rw [represent]
  cases hit : (Identity.of? value).bind cache.live? with
  | none => exact Or.inr ⟨rfl, rfl⟩
  | some found =>
      left
      rcases found with ⟨key, entry⟩
      rcases Option.bind_eq_some_iff.mp hit with ⟨identity, ofValue, live⟩
      rcases Option.bind_eq_some_iff.mp live with ⟨known, named, occupied⟩
      rcases Option.map_eq_some_iff.mp occupied with ⟨content, looked, same⟩
      rcases Prod.mk.inj same with ⟨rfl, rfl⟩
      exact ⟨identity, known, content, ofValue, named, looked, rfl⟩

/-- What a request can do: a hit, a miss, an update, a release, or nothing when it is refused. -/
theorem after_cases (cache : IdentityCache) (request : CacheRequest) :
    (request.isRepresent = true ∧
      cache.after request = { cache with counters := cache.counters.countHit }) ∨
    (∃ value type, request = .represent value type ∧ (Identity.of? value).bind cache.live? = none ∧
      cache.after request = (cache.fill value type).2) ∨
    (request.isRepresent = false ∧ ∃ key value, cache.update? key value = some (cache.after request)) ∨
    (request.isRepresent = false ∧
      ∃ key value, cache.release? key = some (value, cache.after request)) ∨
    (request.isRepresent = false ∧ cache.after request = cache) := by
  cases request with
  | represent value type =>
      rcases represent_cases cache value type with ⟨_, _, _, _, _, _, hit⟩ | ⟨unknown, miss⟩
      · exact Or.inl ⟨rfl, by rw [after, hit]⟩
      · exact Or.inr (Or.inl ⟨value, type, rfl, unknown, by rw [after, miss]⟩)
  | update key value =>
      simp only [after, update]
      cases updated : cache.update? key value with
      | none => exact Or.inr (Or.inr (Or.inr (Or.inr ⟨rfl, rfl⟩)))
      | some changed => exact Or.inr (Or.inr (Or.inl ⟨rfl, key, value, updated⟩))
  | release key =>
      simp only [after]
      cases gone : cache.release? key with
      | none => exact Or.inr (Or.inr (Or.inr (Or.inr ⟨rfl, rfl⟩)))
      | some result => exact Or.inr (Or.inr (Or.inr (Or.inl ⟨rfl, key, result.1, gone⟩)))
  | releaseInstance reference =>
      simp only [after, releaseInstance?]
      cases gone : (cache.byIdentity.get? (.shared reference)).bind cache.release? with
      | none => exact Or.inr (Or.inr (Or.inr (Or.inr ⟨rfl, rfl⟩)))
      | some result =>
          rcases Option.bind_eq_some_iff.mp gone with ⟨key, -, released⟩
          exact Or.inr (Or.inr (Or.inr (Or.inl ⟨rfl, key, result.1, released⟩)))

theorem takeSlot_eq (cache : IdentityCache) :
    cache.takeSlot = (cache.nextIndex,
      { cache with
        free := cache.free.tail
        slots := if cache.free = [] then cache.slots.push .fresh else cache.slots }) := by
  rcases cache with ⟨tag, slots, free, byIdentity, counters⟩
  cases free <;> simp [takeSlot, nextIndex]

@[simp]
theorem fill_free : (cache.fill value type).2.free = cache.free.tail := by
  simp [fill, takeSlot_eq]

@[simp]
theorem fill_tag : (cache.fill value type).2.tag = cache.tag := by
  simp [fill, takeSlot_eq]

theorem fill_proxy_tag : (cache.fill value type).1.tag = cache.tag := by
  simp [fill, takeSlot_eq]

@[simp]
theorem fill_counters : (cache.fill value type).2.counters = cache.counters.countMiss := by
  simp [fill, takeSlot_eq]

theorem fill_slots_size :
    (cache.fill value type).2.slots.size =
      if cache.free = [] then cache.slots.size + 1 else cache.slots.size := by
  by_cases exhausted : cache.free = [] <;> simp [fill, takeSlot_eq, exhausted]

theorem fill_byIdentity :
    (cache.fill value type).2.byIdentity =
      (Identity.of? value).elim cache.byIdentity fun identity =>
        cache.byIdentity.insert identity (cache.fill value type).1.key := by
  simp [fill, takeSlot_eq]

@[simp]
theorem nextIndex_of_exhausted (exhausted : cache.free = []) : cache.nextIndex = cache.slots.size := by
  simp [nextIndex, exhausted]

theorem fill_key :
    (cache.fill value type).1.key =
      ⟨cache.nextIndex, UInt32.ofNat (cache.releasesAt cache.nextIndex)⟩ := by
  by_cases exhausted : cache.free = []
  · simp [fill, takeSlot_eq, generationAt, releasesAt, exhausted, CacheSlot.fresh]
  · simp [fill, takeSlot_eq, generationAt, releasesAt, exhausted]

theorem fill_slots (vacant : cache.NextIsVacant) (other : Nat) :
    (cache.fill value type).2.slots[other]? =
      if other = cache.nextIndex then
        some ⟨cache.releasesAt cache.nextIndex, some (entryFor value type)⟩
      else cache.slots[other]? := by
  by_cases exhausted : cache.free = []
  · simp [fill, takeSlot_eq, exhausted, entryFor, Array.getElem?_setIfInBounds, Array.getElem?_push,
      releasesAt, CacheSlot.fresh]
    grind
  · rcases vacant exhausted with ⟨slot, found, -⟩
    simp [fill, takeSlot_eq, exhausted, entryFor, Array.getElem?_setIfInBounds, releasesAt]
    grind

/-- Filling a slot makes one key live and leaves every other key as it was. -/
theorem lookup?_fill (vacant : cache.NextIsVacant) (other : ProxyKey) :
    (cache.fill value type).2.lookup? other =
      if other = (cache.fill value type).1.key then some (entryFor value type)
      else cache.lookup? other := by
  rcases other with ⟨index, generation⟩
  have nextDead : ∀ slot, cache.slots[cache.nextIndex]? = some slot → slot.entry = none := by
    intro slot found
    by_cases exhausted : cache.free = []
    · simp [exhausted] at found
    · rcases vacant exhausted with ⟨vacantSlot, foundVacant, empty⟩
      grind
  simp only [lookup?, fill_slots vacant, fill_key, ProxyKey.mk.injEq]
  by_cases next : index = cache.nextIndex
  · subst next
    simp only [true_and, if_true, CacheSlot.generation]
    grind
  · simp [next]

/-- Every live entry has a property. -/
def AllLive (cache : IdentityCache) (property : CacheEntry → Prop) : Prop :=
  ∀ key entry, cache.lookup? key = some entry → property entry

variable {property : CacheEntry → Prop}

theorem allLive_empty (tag : CacheTag) (property : CacheEntry → Prop) : (empty tag).AllLive property := by
  intro key entry live
  simp [empty, lookup?] at live

theorem AllLive.represent (all : cache.AllLive property) (vacant : cache.NextIsVacant)
    (added : property (entryFor value type)) : (cache.represent value type).2.AllLive property := by
  rcases represent_cases cache value type with ⟨_, _, _, _, _, _, hit⟩ | ⟨-, miss⟩
  · rw [hit]
    exact all
  · intro key entry live
    rw [miss, lookup?_fill vacant] at live
    split at live
    · rcases Option.some.inj live with rfl
      exact added
    · exact all key entry live

theorem AllLive.update (all : cache.AllLive property) {key : ProxyKey}
    (kept : ∀ entry, cache.lookup? key = some entry → property { entry with value := value }) :
    (cache.update key value).AllLive property := by
  rw [IdentityCache.update]
  cases updated : cache.update? key value with
  | none => exact all
  | some changed =>
      rw [Option.getD_some]
      intro other entry live
      rw [lookup?_update? updated] at live
      split at live
      · rcases Option.map_eq_some_iff.mp live with ⟨before, beforeLive, rfl⟩
        exact kept before beforeLive
      · exact all other entry live

theorem AllLive.release (all : cache.AllLive property) {key : ProxyKey} {changed : IdentityCache}
    (released : cache.release? key = some (value, changed)) : changed.AllLive property := by
  intro other entry live
  rw [lookup?_release? released] at live
  split at live
  · cases live
  · exact all other entry live

end IdentityCache

end ScriptBridge
