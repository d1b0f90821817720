import Mathlib.Data.List.Induction
import Mathlib.Data.List.Nodup
import Mathlib.Data.List.Perm.Basic
import ScriptBridge.Proofs.Identity.Requests

/-!
# Consistency of the identity cache

The slots, the free slots and the live keys of identities say the same about
which proxies are live. Each request keeps this, by the lemmas on what it makes
of slots and keys, and the empty cache starts with it.
-/

namespace ScriptBridge

namespace IdentityCache

/-- The three parts of a cache that record which proxies are live agree. -/
structure Consistent (cache : IdentityCache) : Prop where
  free_nodup : cache.free.Nodup
  mem_free_iff : ∀ index,
    index ∈ cache.free ↔ ∃ slot, cache.slots[index]? = some slot ∧ slot.entry = none
  byIdentity_iff : ∀ identity key,
    cache.byIdentity.get? identity = some key ↔
      ∃ entry, cache.lookup? key = some entry ∧ entry.identity = some identity

variable {cache : IdentityCache} {value : HostValue} {type : TypeRef}

theorem consistent_empty (tag : CacheTag) : (empty tag).Consistent where
  free_nodup := List.nodup_nil
  mem_free_iff := by simp [empty]
  byIdentity_iff := by simp [empty, lookup?]

theorem Consistent.nextIsVacant (consistent : cache.Consistent) : cache.NextIsVacant := by
  intro available
  apply (consistent.mem_free_iff cache.nextIndex).mp
  rcases List.exists_cons_of_ne_nil available with ⟨index, rest, split⟩
  simp [nextIndex, split]

/-- An identity has one live key. -/
theorem Consistent.key_unique (consistent : cache.Consistent) {identity : Identity}
    {key other : ProxyKey} {entry otherEntry : CacheEntry}
    (live : cache.lookup? key = some entry) (named : entry.identity = some identity)
    (otherLive : cache.lookup? other = some otherEntry)
    (otherNamed : otherEntry.identity = some identity) : key = other := by
  have first := (consistent.byIdentity_iff identity key).mpr ⟨entry, live, named⟩
  have second := (consistent.byIdentity_iff identity other).mpr ⟨otherEntry, otherLive, otherNamed⟩
  exact Option.some.inj (first.symm.trans second)

theorem Consistent.live?_eq_none_iff (consistent : cache.Consistent) (identity : Identity) :
    cache.live? identity = none ↔ cache.byIdentity.get? identity = none := by
  cases named : cache.byIdentity.get? identity with
  | none => simp [live?, named]
  | some key =>
      rcases (consistent.byIdentity_iff identity key).mp named with ⟨entry, live, -⟩
      simp [live?, named, live]

/-- The key that a fill makes was dead. -/
theorem Consistent.lookup?_next (consistent : cache.Consistent) (generation : UInt32) :
    cache.lookup? ⟨cache.nextIndex, generation⟩ = none := by
  by_cases exhausted : cache.free = []
  · simp [lookup?, exhausted]
  · rcases consistent.nextIsVacant exhausted with ⟨slot, found, vacant⟩
    simp [lookup?, found, vacant]

theorem Consistent.fill (consistent : cache.Consistent)
    (unknown : (Identity.of? value).bind cache.live? = none) :
    (cache.fill value type).2.Consistent where
  free_nodup := by
    rw [fill_free]
    exact consistent.free_nodup.tail
  mem_free_iff := by
    intro index
    rw [fill_slots consistent.nextIsVacant, fill_free]
    -- The first free slot is filled; if there is none, a new slot is added at the end.
    by_cases exhausted : cache.free = []
    · have unlisted := consistent.mem_free_iff index
      simp only [exhausted, List.not_mem_nil, false_iff] at unlisted
      simp only [exhausted, List.tail_nil, List.not_mem_nil, false_iff]
      grind
    · rcases List.exists_cons_of_ne_nil exhausted with ⟨next, rest, split⟩
      have distinct := consistent.free_nodup
      have listed := consistent.mem_free_iff index
      have nextIs : cache.nextIndex = next := by simp [nextIndex, split]
      rw [split] at distinct listed
      rw [split, List.tail_cons, nextIs]
      rw [List.nodup_cons] at distinct
      rw [List.mem_cons] at listed
      grind
  byIdentity_iff := by
    intro identity key
    have newDead : cache.lookup? (cache.fill value type).1.key = none := by
      rw [fill_key]
      exact consistent.lookup?_next _
    have before := consistent.byIdentity_iff identity key
    rw [fill_byIdentity, lookup?_fill consistent.nextIsVacant]
    -- The new key was dead before, and no other key changes.
    by_cases minted : key = (cache.fill value type).1.key
    · rw [if_pos minted]
      rw [minted, newDead] at before
      subst minted
      cases ofValue : Identity.of? value with
      | none => simp [entryFor, ofValue, before]
      | some known =>
          simp only [Option.elim_some, FinMap.get?_insert, entryFor, ofValue]
          grind
    · rw [if_neg minted, ← before]
      cases ofValue : Identity.of? value with
      | none => rfl
      | some known =>
          rw [ofValue, Option.bind_some, consistent.live?_eq_none_iff] at unknown
          rw [Option.elim_some, FinMap.get?_insert]
          grind

theorem Consistent.update? (consistent : cache.Consistent) {key : ProxyKey} {changed : IdentityCache}
    (updated : cache.update? key value = some changed) : changed.Consistent := by
  have lookups := lookup?_update? updated
  rcases Option.map_eq_some_iff.mp updated with ⟨entry, live, rfl⟩
  rcases lookup?_eq_some_iff.mp live with ⟨slot, found, -, occupied⟩
  refine ⟨consistent.free_nodup, ?_, ?_⟩
  · intro index
    rw [consistent.mem_free_iff]
    simp only [Array.getElem?_setIfInBounds]
    grind
  · intro identity other
    rw [consistent.byIdentity_iff, lookups other]
    by_cases same : other = key
    · simp [same, live]
    · simp [same]

theorem Consistent.release? (consistent : cache.Consistent) {key : ProxyKey} {released : HostValue}
    {changed : IdentityCache} (gone : cache.release? key = some (released, changed)) :
    changed.Consistent := by
  have lookups := lookup?_release? gone
  rcases Option.map_eq_some_iff.mp gone with ⟨entry, live, final⟩
  rcases Prod.mk.inj final with ⟨rfl, rfl⟩
  rcases lookup?_eq_some_iff.mp live with ⟨slot, found, current, occupied⟩
  refine ⟨?_, ?_, ?_⟩
  · refine List.nodup_cons.mpr ⟨?_, consistent.free_nodup⟩
    rw [consistent.mem_free_iff]
    grind
  · intro index
    have before := consistent.mem_free_iff index
    simp only [List.mem_cons, Array.getElem?_setIfInBounds]
    grind
  · intro identity other
    have before := consistent.byIdentity_iff identity other
    -- Keys of the emptied slot of another generation were dead before.
    have sameSlot : ∀ content, cache.lookup? other = some content → other.index = key.index →
        other = key := by
      intro content otherLive sameIndex
      rcases lookup?_eq_some_iff.mp otherLive with ⟨otherSlot, otherFound, otherCurrent, -⟩
      rw [sameIndex, found] at otherFound
      cases key
      cases other
      grind
    rw [lookups other]
    cases named : entry.identity with
    | none => grind
    | some known =>
        have knownKey := (consistent.byIdentity_iff known key).mpr ⟨entry, live, named⟩
        simp only [Option.elim_some, knownKey, if_true, FinMap.get?_erase]
        grind

theorem Consistent.after (consistent : cache.Consistent) (request : CacheRequest) :
    (cache.after request).Consistent := by
  rcases after_cases cache request with
    ⟨-, hit⟩ | ⟨value, type, -, unknown, miss⟩ | ⟨-, key, value, updated⟩ | ⟨-, key, value, gone⟩ |
    ⟨-, refused⟩
  · rw [hit]
    exact ⟨consistent.free_nodup, consistent.mem_free_iff, consistent.byIdentity_iff⟩
  · rw [miss]
    exact consistent.fill unknown
  · exact consistent.update? updated
  · exact consistent.release? gone
  · rw [refused]
    exact consistent

theorem Consistent.afterAll (consistent : cache.Consistent) (requests : List CacheRequest) :
    (cache.afterAll requests).Consistent := by
  induction requests generalizing cache with
  | nil => exact consistent
  | cons request rest ih => exact ih (consistent.after request)

/-- The indices of the empty slots, in order. -/
def vacancies (cache : IdentityCache) : List Nat :=
  (cache.slots.toList.zipIdx.filter fun pair => !pair.1.entry.isSome).map Prod.snd

theorem vacancies_nodup (cache : IdentityCache) : cache.vacancies.Nodup := by
  have indices : (cache.slots.toList.zipIdx.map Prod.snd).Nodup := by
    rw [List.zipIdx_map_snd]
    exact List.nodup_range'
  exact indices.sublist (List.filter_sublist.map Prod.snd)

theorem mem_vacancies_iff (cache : IdentityCache) (index : Nat) :
    index ∈ cache.vacancies ↔ ∃ slot, cache.slots[index]? = some slot ∧ slot.entry = none := by
  simp only [vacancies, List.mem_map, List.mem_filter, Prod.exists, exists_eq_right,
    List.mk_mem_zipIdx_iff_getElem?, Array.getElem?_toList, Bool.not_eq_true', Option.isSome_eq_false_iff,
    Option.isNone_iff_eq_none]

theorem size_add_vacancies (cache : IdentityCache) :
    cache.size + cache.vacancies.length = cache.slots.size := by
  have values : cache.slots.toList.zipIdx.map Prod.fst = cache.slots.toList := List.zipIdx_map_fst 0 _
  calc
    cache.size + cache.vacancies.length
      = ((cache.slots.toList.zipIdx.map Prod.fst).filter fun slot => slot.entry.isSome).length
          + (cache.slots.toList.zipIdx.filter fun pair => !pair.1.entry.isSome).length := by
        rw [values, size, vacancies, List.length_map]
    _ = cache.slots.toList.zipIdx.length := by
        rw [List.filter_map, List.length_map]
        exact (List.length_eq_length_filter_add _).symm
    _ = cache.slots.size := by rw [List.length_zipIdx, Array.length_toList]

theorem Consistent.slots_size (consistent : cache.Consistent) :
    cache.slots.size = cache.size + cache.free.length := by
  have listed : cache.free.Perm cache.vacancies := by
    rw [List.perm_ext_iff_of_nodup consistent.free_nodup cache.vacancies_nodup]
    intro index
    rw [consistent.mem_free_iff, mem_vacancies_iff]
  rw [listed.length_eq, size_add_vacancies]

/-- Every request for a proxy is counted once, as a hit or as a miss. -/
theorem after_hits_add_misses (cache : IdentityCache) (request : CacheRequest) :
    (cache.after request).counters.hits + (cache.after request).counters.misses =
      cache.counters.hits + cache.counters.misses + if request.isRepresent then 1 else 0 := by
  rcases after_cases cache request with
    ⟨counted, hit⟩ | ⟨value, type, rfl, -, miss⟩ | ⟨uncounted, key, value, updated⟩ |
    ⟨uncounted, key, value, gone⟩ | ⟨uncounted, refused⟩
  · simp only [hit, counted, CacheCounters.countHit, ↓reduceIte]
    omega
  · simp only [miss, CacheRequest.isRepresent, fill_counters, CacheCounters.countMiss, ↓reduceIte]
    omega
  · rcases Option.map_eq_some_iff.mp updated with ⟨entry, -, final⟩
    simp [← final, uncounted]
  · rcases Option.map_eq_some_iff.mp gone with ⟨entry, -, final⟩
    rcases Prod.mk.inj final with ⟨-, final⟩
    simp [← final, uncounted, CacheCounters.countRelease]
  · simp [refused, uncounted]

theorem afterAll_hits_add_misses (cache : IdentityCache) (requests : List CacheRequest) :
    (cache.afterAll requests).counters.hits + (cache.afterAll requests).counters.misses =
      cache.counters.hits + cache.counters.misses + requests.countP CacheRequest.isRepresent := by
  induction requests generalizing cache with
  | nil => rfl
  | cons request rest ih =>
      rw [afterAll_cons, ih, after_hits_add_misses, List.countP_cons]
      omega

/-- Each miss took a slot that is either still taken, or was released and is free again. -/
def Balanced (cache : IdentityCache) : Prop :=
  cache.counters.misses + cache.free.length = cache.counters.releases + cache.slots.size

theorem balanced_empty (tag : CacheTag) : (empty tag).Balanced := rfl

theorem Balanced.fill (balanced : cache.Balanced) : (cache.fill value type).2.Balanced := by
  simp only [Balanced, fill_counters, fill_free, fill_slots_size, CacheCounters.countMiss,
    List.length_tail] at balanced ⊢
  by_cases exhausted : cache.free = []
  · simp only [exhausted, List.length_nil, if_true] at balanced ⊢
    omega
  · have available := List.length_pos_iff.mpr exhausted
    rw [if_neg exhausted]
    omega

theorem Balanced.after (balanced : cache.Balanced) (request : CacheRequest) :
    (cache.after request).Balanced := by
  rcases after_cases cache request with
    ⟨-, hit⟩ | ⟨value, type, -, -, miss⟩ | ⟨-, key, value, updated⟩ | ⟨-, key, value, gone⟩ | ⟨-, refused⟩
  · rw [hit]
    exact balanced
  · rw [miss]
    exact balanced.fill
  · rcases Option.map_eq_some_iff.mp updated with ⟨entry, -, final⟩
    simpa only [← final, Balanced, Array.size_setIfInBounds] using balanced
  · rcases Option.map_eq_some_iff.mp gone with ⟨entry, -, final⟩
    rcases Prod.mk.inj final with ⟨-, final⟩
    simp only [Balanced, ← final, CacheCounters.countRelease, List.length_cons,
      Array.size_setIfInBounds] at balanced ⊢
    omega
  · rw [refused]
    exact balanced

theorem Balanced.afterAll (balanced : cache.Balanced) (requests : List CacheRequest) :
    (cache.afterAll requests).Balanced := by
  induction requests generalizing cache with
  | nil => exact balanced
  | cons request rest ih => exact ih (balanced.after request)

theorem Consistent.live?_known (consistent : cache.Consistent) {identity : Identity} {key : ProxyKey}
    (named : cache.byIdentity.get? identity = some key) :
    ∃ entry, cache.live? identity = some (key, entry) := by
  rcases (consistent.byIdentity_iff identity key).mp named with ⟨entry, live, -⟩
  exact ⟨entry, by simp [live?, named, live]⟩

theorem Consistent.findKey?_known (consistent : cache.Consistent) {identity : Identity} {key : ProxyKey}
    (ofValue : Identity.of? value = some identity)
    (named : cache.byIdentity.get? identity = some key) : cache.findKey? value = some key := by
  rcases consistent.live?_known named with ⟨entry, live⟩
  simp [findKey?, ofValue, live]

/-- A value whose identity has a key gets that key, and only the hit is counted. -/
theorem Consistent.represent_known (consistent : cache.Consistent) {identity : Identity} {key : ProxyKey}
    (ofValue : Identity.of? value = some identity)
    (named : cache.byIdentity.get? identity = some key) :
    (cache.represent value type).1.key = key ∧
      (cache.represent value type).2 = { cache with counters := cache.counters.countHit } := by
  rcases consistent.live?_known named with ⟨entry, live⟩
  simp [IdentityCache.represent, ofValue, live]

/-- A live key was made for a value of the identity that its entry has. -/
theorem exists_origin (tag : CacheTag) (requests : List CacheRequest) {key : ProxyKey} {entry : CacheEntry}
    (live : ((empty tag).afterAll requests).lookup? key = some entry) :
    ∃ earlier value type later, requests = earlier ++ .represent value type :: later ∧
      Identity.of? value = entry.identity ∧
      (((empty tag).afterAll earlier).represent value type).1.key = key := by
  induction requests using List.reverseRecOn generalizing entry with
  | nil => simp [empty, lookup?] at live
  | append_singleton requests request ih =>
      rw [afterAll_append, afterAll_cons, afterAll_nil] at live
      -- A key that was live before the last request has its origin among the others.
      have older : ∀ before, ((empty tag).afterAll requests).lookup? key = some before →
          before.identity = entry.identity →
          ∃ earlier value type later,
            requests ++ [request] = earlier ++ .represent value type :: later ∧
            Identity.of? value = entry.identity ∧
            (((empty tag).afterAll earlier).represent value type).1.key = key := by
        intro before liveBefore same
        rcases ih liveBefore with ⟨earlier, value, type, later, split, ofValue, made⟩
        exact ⟨earlier, value, type, later ++ [request], by simp [split], ofValue.trans same, made⟩
      rcases after_cases ((empty tag).afterAll requests) request with
        ⟨-, hit⟩ | ⟨value, type, rfl, unknown, miss⟩ | ⟨-, updatedKey, value, updated⟩ |
        ⟨-, releasedKey, value, gone⟩ | ⟨-, refused⟩
      · rw [hit] at live
        exact older entry live rfl
      · have vacant := ((consistent_empty tag).afterAll requests).nextIsVacant
        rw [miss, lookup?_fill vacant] at live
        split at live
        next minted =>
          rcases Option.some.inj live with rfl
          refine ⟨requests, value, type, [], rfl, rfl, ?_⟩
          rw [represent, unknown, minted]
        next => exact older entry live rfl
      · rw [lookup?_update? updated] at live
        split at live
        next renewed =>
          rcases Option.map_eq_some_iff.mp live with ⟨before, liveBefore, rfl⟩
          rw [← renewed] at liveBefore
          exact older before liveBefore rfl
        next => exact older entry live rfl
      · rw [lookup?_release? gone] at live
        split at live
        next => simp at live
        next => exact older entry live rfl
      · rw [refused] at live
        exact older entry live rfl

/-- Every run keeps the free slots, the live keys and the counts of a cache in agreement. -/
theorem afterAll_coherent (tag : CacheTag) (requests : List CacheRequest) :
    let cache := (empty tag).afterAll requests
    (cache.free.Nodup ∧
      (∀ index, index ∈ cache.free ↔ ∃ slot, cache.slots[index]? = some slot ∧ slot.entry = none) ∧
      cache.slots.size = cache.size + cache.free.length) ∧
    ((∀ identity key,
        cache.byIdentity.get? identity = some key ↔
          ∃ entry, cache.lookup? key = some entry ∧ entry.identity = some identity) ∧
      (∀ key entry, cache.lookup? key = some entry →
        ∃ earlier value type later, requests = earlier ++ .represent value type :: later ∧
          Identity.of? value = entry.identity ∧
          (((empty tag).afterAll earlier).represent value type).1.key = key) ∧
      (∀ identity key other entry otherEntry,
        cache.lookup? key = some entry → entry.identity = some identity →
        cache.lookup? other = some otherEntry → otherEntry.identity = some identity → key = other) ∧
      (∀ value identity key, Identity.of? value = some identity →
        cache.byIdentity.get? identity = some key →
        cache.findKey? value = some key ∧
          ∀ type, (cache.represent value type).1.key = key ∧
            (cache.represent value type).2 = { cache with counters := cache.counters.countHit })) ∧
    cache.counters.hits + cache.counters.misses = requests.countP CacheRequest.isRepresent ∧
    cache.counters.misses = cache.counters.releases + cache.size := by
  intro cache
  have consistent : cache.Consistent := (consistent_empty tag).afterAll requests
  have balanced : cache.Balanced := (balanced_empty tag).afterAll requests
  refine ⟨⟨consistent.free_nodup, consistent.mem_free_iff, consistent.slots_size⟩,
    ⟨consistent.byIdentity_iff, ?_, ?_, ?_⟩, ?_, ?_⟩
  · intro key entry live
    exact exists_origin tag requests live
  · intro identity key other entry otherEntry live named otherLive otherNamed
    exact consistent.key_unique live named otherLive otherNamed
  · intro value identity key ofValue named
    refine ⟨consistent.findKey?_known ofValue named, ?_⟩
    intro type
    exact consistent.represent_known ofValue named
  · rw [afterAll_hits_add_misses]
    simp [empty, CacheCounters.zero]
  · have slots := consistent.slots_size
    rw [Balanced] at balanced
    omega

end IdentityCache

end ScriptBridge
