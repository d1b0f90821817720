import ScriptBridge.Proofs.Identity.Consistency

/-!
# Later states of an identity cache

What outlives any requests to a cache. A slot is released more and more often,
and as long as it is not released again, what it holds keeps its type and its
identity. As the generation of a slot is its number of releases, a key that was
released stays dead until the generations of its slot start again.
-/

namespace ScriptBridge

namespace IdentityCache

/-- No slot was released so often that its generations started again. -/
def FewReleases (cache : IdentityCache) : Prop := ∀ index, cache.releasesAt index < UInt32.size

theorem fewReleases_iff {cache : IdentityCache} :
    cache.FewReleases ↔ ∀ slot ∈ cache.slots, slot.releases < UInt32.size := by
  constructor
  · intro few slot present
    rcases Array.mem_iff_getElem?.mp present with ⟨index, found⟩
    have less := few index
    rwa [releasesAt_eq found] at less
  · intro few index
    cases found : cache.slots[index]? with
    | none => simp [releasesAt, found]
    | some slot =>
        rw [releasesAt_eq found]
        exact few slot (Array.mem_of_getElem? found)

instance (cache : IdentityCache) : Decidable cache.FewReleases := decidable_of_iff _ fewReleases_iff.symm

/-- What requests made of a cache. -/
structure Succeeds (later earlier : IdentityCache) : Prop where
  tag_eq : later.tag = earlier.tag
  releases_le : ∀ index, earlier.releasesAt index ≤ later.releasesAt index
  kept : ∀ key entry, earlier.lookup? key = some entry →
    later.releasesAt key.index = earlier.releasesAt key.index →
    ∃ newer, later.lookup? key = some newer ∧ newer.type = entry.type ∧ newer.identity = entry.identity

variable {cache earlier later : IdentityCache} {key : ProxyKey}

theorem Succeeds.refl (cache : IdentityCache) : cache.Succeeds cache where
  tag_eq := rfl
  releases_le := fun _ => Nat.le_refl _
  kept := fun _ entry live _ => ⟨entry, live, rfl, rfl⟩

theorem Succeeds.trans {middle : IdentityCache} (second : later.Succeeds middle)
    (first : middle.Succeeds earlier) : later.Succeeds earlier where
  tag_eq := second.tag_eq.trans first.tag_eq
  releases_le := fun index => Nat.le_trans (first.releases_le index) (second.releases_le index)
  kept := by
    intro key entry live same
    have lower := first.releases_le key.index
    have upper := second.releases_le key.index
    rcases first.kept key entry live (by omega) with ⟨middleEntry, middleLive, middleType, middleIdentity⟩
    rcases second.kept key middleEntry middleLive (by omega) with ⟨newer, newerLive, newerType, newerIdentity⟩
    exact ⟨newer, newerLive, newerType.trans middleType, newerIdentity.trans middleIdentity⟩

/-- A live key has the generation of its slot. -/
theorem generation_of_live {entry : CacheEntry} (live : cache.lookup? key = some entry) :
    key.generation = UInt32.ofNat (cache.releasesAt key.index) := by
  rcases lookup?_eq_some_iff.mp live with ⟨slot, found, current, -⟩
  rw [releasesAt_eq found, ← current, CacheSlot.generation]

theorem releasesAt_fill (vacant : cache.NextIsVacant) (value : HostValue) (type : TypeRef) (index : Nat) :
    (cache.fill value type).2.releasesAt index = cache.releasesAt index := by
  simp only [releasesAt, fill_slots vacant]
  split
  next next => simp [next]
  next => rfl

theorem releasesAt_update? {changed : IdentityCache} {value : HostValue}
    (updated : cache.update? key value = some changed) (index : Nat) :
    changed.releasesAt index = cache.releasesAt index := by
  rcases Option.map_eq_some_iff.mp updated with ⟨entry, live, rfl⟩
  rcases lookup?_eq_some_iff.mp live with ⟨slot, found, -, -⟩
  rw [releasesAt_eq found]
  simp only [releasesAt]
  grind

theorem releasesAt_release? {changed : IdentityCache} {value : HostValue}
    (released : cache.release? key = some (value, changed)) (index : Nat) :
    changed.releasesAt index =
      if index = key.index then cache.releasesAt key.index + 1 else cache.releasesAt index := by
  rcases Option.map_eq_some_iff.mp released with ⟨entry, live, final⟩
  rcases Prod.mk.inj final with ⟨-, rfl⟩
  rcases lookup?_eq_some_iff.mp live with ⟨slot, found, -, -⟩
  rw [releasesAt_eq found]
  simp only [releasesAt]
  grind

theorem succeeds_fill (consistent : cache.Consistent) (value : HostValue) (type : TypeRef) :
    (cache.fill value type).2.Succeeds cache where
  tag_eq := fill_tag
  releases_le := fun index => Nat.le_of_eq (releasesAt_fill consistent.nextIsVacant value type index).symm
  kept := by
    intro key entry live _
    have distinct : key ≠ (cache.fill value type).1.key := by
      intro same
      rw [same, fill_key, consistent.lookup?_next] at live
      cases live
    refine ⟨entry, ?_, rfl, rfl⟩
    rw [lookup?_fill consistent.nextIsVacant, if_neg distinct]
    exact live

theorem succeeds_update? {changed : IdentityCache} {value : HostValue}
    (updated : cache.update? key value = some changed) : changed.Succeeds cache where
  tag_eq := by
    rcases Option.map_eq_some_iff.mp updated with ⟨entry, -, rfl⟩
    rfl
  releases_le := fun index => Nat.le_of_eq (releasesAt_update? updated index).symm
  kept := by
    intro other entry live _
    rw [lookup?_update? updated]
    by_cases same : other = key
    · subst same
      exact ⟨{ entry with value := value }, by simp [live], rfl, rfl⟩
    · exact ⟨entry, by rw [if_neg same, live], rfl, rfl⟩

theorem succeeds_release? {changed : IdentityCache} {value : HostValue}
    (released : cache.release? key = some (value, changed)) : changed.Succeeds cache where
  tag_eq := by
    rcases Option.map_eq_some_iff.mp released with ⟨entry, -, final⟩
    rcases Prod.mk.inj final with ⟨-, rfl⟩
    rfl
  releases_le := by
    intro index
    rw [releasesAt_release? released]
    split
    next emptied => subst emptied; omega
    next => omega
  kept := by
    intro other entry live same
    rw [releasesAt_release? released] at same
    have elsewhere : other.index ≠ key.index := by
      intro emptied
      rw [if_pos emptied, emptied] at same
      omega
    refine ⟨entry, ?_, rfl, rfl⟩
    rw [lookup?_release? released, if_neg elsewhere, live]

theorem succeeds_after (consistent : cache.Consistent) (request : CacheRequest) :
    (cache.after request).Succeeds cache := by
  rcases after_cases cache request with
    ⟨-, hit⟩ | ⟨value, type, -, -, miss⟩ | ⟨-, key, value, updated⟩ | ⟨-, key, value, gone⟩ | ⟨-, refused⟩
  · rw [hit]
    exact ⟨rfl, fun _ => Nat.le_refl _, fun _ entry live _ => ⟨entry, live, rfl, rfl⟩⟩
  · rw [miss]
    exact succeeds_fill consistent value type
  · exact succeeds_update? updated
  · exact succeeds_release? gone
  · rw [refused]
    exact .refl cache

theorem succeeds_afterAll (consistent : cache.Consistent) (requests : List CacheRequest) :
    (cache.afterAll requests).Succeeds cache := by
  induction requests generalizing cache with
  | nil => exact .refl cache
  | cons request rest ih =>
      exact (ih (consistent.after request)).trans (succeeds_after consistent request)

/-- The key was live once, and its slot has been released since. -/
def IsSpent (cache : IdentityCache) (key : ProxyKey) : Prop :=
  ∃ releases, key.generation = UInt32.ofNat releases ∧ releases < cache.releasesAt key.index

theorem isSpent_of_release? {changed : IdentityCache} {value : HostValue}
    (released : cache.release? key = some (value, changed)) : changed.IsSpent key := by
  rcases Option.map_eq_some_iff.mp released with ⟨entry, live, -⟩
  refine ⟨cache.releasesAt key.index, generation_of_live live, ?_⟩
  rw [releasesAt_release? released, if_pos rfl]
  omega

theorem IsSpent.of_succeeds (spent : earlier.IsSpent key) (succeeds : later.Succeeds earlier) :
    later.IsSpent key := by
  rcases spent with ⟨releases, generation, fewer⟩
  exact ⟨releases, generation, Nat.lt_of_lt_of_le fewer (succeeds.releases_le key.index)⟩

theorem IsSpent.lookup? (spent : cache.IsSpent key) (few : cache.FewReleases) : cache.lookup? key = none := by
  rcases spent with ⟨releases, generation, fewer⟩
  cases live : cache.lookup? key with
  | none => rfl
  | some entry =>
      have bound := few key.index
      have same := generation.symm.trans (generation_of_live live)
      rw [← UInt32.toNat_inj, UInt32.toNat_ofNat_of_lt' (by omega), UInt32.toNat_ofNat_of_lt' bound] at same
      omega

/-- The key whose slot a request empties. -/
def released? (cache : IdentityCache) : CacheRequest → Option ProxyKey
  | .release key => (cache.release? key).map fun _ => key
  | .releaseInstance reference =>
      (cache.byIdentity.get? (.shared reference)).filter fun key => (cache.release? key).isSome
  | _ => none

theorem release?_of_released? {request : CacheRequest} (released : cache.released? request = some key) :
    ∃ value, cache.release? key = some (value, cache.after request) := by
  cases request with
  | represent value type => cases released
  | update key value => cases released
  | release asked =>
      rcases Option.map_eq_some_iff.mp released with ⟨⟨value, changed⟩, gone, rfl⟩
      exact ⟨value, by simp [after, gone]⟩
  | releaseInstance reference =>
      rcases Option.filter_eq_some_iff.mp released with ⟨named, live⟩
      rcases Option.isSome_iff_exists.mp live with ⟨⟨value, changed⟩, gone⟩
      exact ⟨value, by simp [after, releaseInstance?, named, gone]⟩

theorem isSpent_of_released? {request : CacheRequest} (released : cache.released? request = some key) :
    (cache.after request).IsSpent key := by
  rcases release?_of_released? released with ⟨value, gone⟩
  exact isSpent_of_release? gone

/-- Nothing is found, changed or released through a dead key. -/
theorem refused_of_dead (dead : cache.lookup? key = none) :
    cache.get? key = none ∧ (∀ proxy, proxy.key = key → cache.resolve? proxy = none) ∧
      (∀ value, cache.update? key value = none ∧ cache.after (.update key value) = cache) ∧
      cache.release? key = none ∧ cache.after (.release key) = cache := by
  refine ⟨?_, ?_, ?_, ?_, ?_⟩
  · simp [get?, dead]
  · intro proxy carries
    simp [resolve?, get?, carries, dead]
  · intro value
    simp [after, update, update?, dead]
  · simp [release?, dead]
  · simp [after, release?, dead]

theorem findKey?_eq_none_iff {value : HostValue} :
    cache.findKey? value = none ↔ (Identity.of? value).bind cache.live? = none := by
  rw [findKey?, Option.map_eq_none_iff]

/-- Two values that were both without a live key never get the same key. -/
theorem represent_key_ne (consistent : earlier.Consistent) {value other : HostValue}
    {type otherType : TypeRef}
    (unknown : earlier.findKey? value = none)
    (succeeds : later.Succeeds (earlier.represent value type).2) (laterConsistent : later.Consistent)
    (otherUnknown : later.findKey? other = none) (few : later.FewReleases) :
    (later.represent other otherType).1.key ≠ (earlier.represent value type).1.key := by
  rw [findKey?_eq_none_iff] at unknown otherUnknown
  have firstMiss : earlier.represent value type = earlier.fill value type := by
    rw [represent, unknown]
  have secondMiss : later.represent other otherType = later.fill other otherType := by
    rw [represent, otherUnknown]
  rw [firstMiss] at succeeds ⊢
  rw [secondMiss, fill_key, fill_key]
  intro same
  rcases ProxyKey.mk.inj same with ⟨sameIndex, sameGeneration⟩
  -- The slot is taken by the first value until it is released once more.
  have live : (earlier.fill value type).2.lookup? (earlier.fill value type).1.key =
      some (entryFor value type) := by
    rw [lookup?_fill consistent.nextIsVacant, if_pos rfl]
  have untouched : later.releasesAt earlier.nextIndex =
      (earlier.fill value type).2.releasesAt earlier.nextIndex := by
    have bound := few earlier.nextIndex
    have fewer := succeeds.releases_le earlier.nextIndex
    rw [releasesAt_fill consistent.nextIsVacant] at fewer ⊢
    rw [sameIndex, ← UInt32.toNat_inj, UInt32.toNat_ofNat_of_lt' bound,
      UInt32.toNat_ofNat_of_lt' (by omega)] at sameGeneration
    exact sameGeneration
  rcases succeeds.kept _ _ live (by rw [fill_key]; exact untouched) with ⟨newer, laterLive, -, -⟩
  rw [fill_key, ← sameIndex, laterConsistent.lookup?_next] at laterLive
  cases laterLive

end IdentityCache

end ScriptBridge
