import ScriptBridge.Metrics
import ScriptBridge.Script.Value

/-!
# The identity cache

The proxies that stand for host values. A shared instance, a type and an
enumeration value each have at most one live proxy; a copied instance gets a
new proxy every time it is represented. A released slot is used again under its
next generation, so that an old key never names a newer value. The lemmas say
what each key finds after a live key was updated or released.
-/

namespace ScriptBridge

/-- What makes two host values the same for the cache. -/
inductive Identity where
  | shared (reference : ObjectRef)
  | type (type : TypeRef)
  | enumeration (type : TypeRef) (value : Int64)
deriving DecidableEq

/-- The identity of a value; copies, delegates and simple values have none. -/
def Identity.of? : HostValue → Option Identity
  | .object reference => some (.shared reference)
  | .type value => some (.type value)
  | .enumeration owner value => some (.enumeration owner value)
  | _ => none

/-- A live proxy: its value, its dispatch type, and the identity it was made under. -/
structure CacheEntry where
  value : HostValue
  type : TypeRef
  identity : Option Identity

/-- A slot: how often it was released, and its entry while it is occupied. -/
structure CacheSlot where
  releases : Nat
  entry : Option CacheEntry

namespace CacheSlot

def fresh : CacheSlot := ⟨0, none⟩

/-- The generation of a slot: its number of releases, which starts again from zero after 32 bits. -/
def generation (slot : CacheSlot) : UInt32 := UInt32.ofNat slot.releases

end CacheSlot

/-- The slots, the free ones last released first, and the live key of each identity. -/
structure IdentityCache where
  tag : CacheTag
  slots : Array CacheSlot
  free : List Nat
  byIdentity : FinMap Identity ProxyKey
  counters : CacheCounters

namespace IdentityCache

def empty (tag : CacheTag) : IdentityCache := ⟨tag, #[], [], .empty, .zero⟩

/-- The entry of a key, if the key is of the slot's current generation. -/
def lookup? (cache : IdentityCache) (key : ProxyKey) : Option CacheEntry :=
  match cache.slots[key.index]? with
  | some slot => if slot.generation = key.generation then slot.entry else none
  | none => none

theorem lookup?_eq_some_iff {cache : IdentityCache} {key : ProxyKey} {entry : CacheEntry} :
    cache.lookup? key = some entry ↔
      ∃ slot, cache.slots[key.index]? = some slot ∧ slot.generation = key.generation ∧
        slot.entry = some entry := by
  rw [lookup?]
  split
  next slot found => simp [found]
  next missing => simp [missing]

def get? (cache : IdentityCache) (key : ProxyKey) : Option HostValue :=
  (cache.lookup? key).map (·.value)

/-- The value behind a proxy that this cache made. -/
def resolve? (cache : IdentityCache) (proxy : Proxy) : Option HostValue :=
  if proxy.tag = cache.tag then cache.get? proxy.key else none

theorem resolve?_eq_some_iff {cache : IdentityCache} {proxy : Proxy} {value : HostValue} :
    cache.resolve? proxy = some value ↔
      proxy.tag = cache.tag ∧ ∃ entry, cache.lookup? proxy.key = some entry ∧ entry.value = value := by
  rw [resolve?, get?]
  split
  next own => simp [own]
  next foreign => simp [foreign]

/-- Whether this cache made the proxy and it is still live. -/
def owns (cache : IdentityCache) (proxy : Proxy) : Bool := (cache.resolve? proxy).isSome

/-- Whether this cache made the proxy but it is no longer live. -/
def isReleased (cache : IdentityCache) (proxy : Proxy) : Bool :=
  proxy.tag = cache.tag && !cache.owns proxy

/-- The live entry of an identity with its key. -/
def live? (cache : IdentityCache) (identity : Identity) : Option (ProxyKey × CacheEntry) :=
  (cache.byIdentity.get? identity).bind fun key => (cache.lookup? key).map fun entry => (key, entry)

def findKey? (cache : IdentityCache) (value : HostValue) : Option ProxyKey :=
  ((Identity.of? value).bind cache.live?).map Prod.fst

/-- Takes the slot released last, or adds one. -/
def takeSlot (cache : IdentityCache) : Nat × IdentityCache :=
  match cache.free with
  | index :: rest => (index, { cache with free := rest })
  | [] => (cache.slots.size, { cache with slots := cache.slots.push .fresh })

def releasesAt (cache : IdentityCache) (index : Nat) : Nat :=
  ((cache.slots[index]?).map (·.releases)).getD 0

theorem releasesAt_eq {cache : IdentityCache} {index : Nat} {slot : CacheSlot}
    (found : cache.slots[index]? = some slot) : cache.releasesAt index = slot.releases := by
  simp [releasesAt, found]

def generationAt (cache : IdentityCache) (index : Nat) : UInt32 :=
  UInt32.ofNat (cache.releasesAt index)

/-- Fills a slot for a value that has no live proxy. -/
def fill (cache : IdentityCache) (value : HostValue) (type : TypeRef) : Proxy × IdentityCache :=
  let (index, cache) := cache.takeSlot
  let key : ProxyKey := ⟨index, cache.generationAt index⟩
  let identity := Identity.of? value
  (⟨key, type, cache.tag⟩,
    { cache with
      slots := cache.slots.setIfInBounds index ⟨cache.releasesAt index, some ⟨value, type, identity⟩⟩
      byIdentity := identity.elim cache.byIdentity fun identity => cache.byIdentity.insert identity key
      counters := cache.counters.countMiss })

/-- The proxy of a value: the live one of its identity, or a new one of the given type. -/
def represent (cache : IdentityCache) (value : HostValue) (type : TypeRef) : Proxy × IdentityCache :=
  match (Identity.of? value).bind cache.live? with
  | some (key, entry) =>
      (⟨key, entry.type, cache.tag⟩,
        { cache with counters := cache.counters.countHit })
  | none => cache.fill value type

def update? (cache : IdentityCache) (key : ProxyKey) (value : HostValue) : Option IdentityCache :=
  (cache.lookup? key).map fun entry =>
    { cache with
      slots := cache.slots.setIfInBounds key.index
        ⟨cache.releasesAt key.index, some { entry with value := value }⟩ }

theorem lookup?_update? {cache changed : IdentityCache} {key : ProxyKey} {value : HostValue}
    (updated : cache.update? key value = some changed) (other : ProxyKey) :
    changed.lookup? other =
      if other = key then (cache.lookup? key).map fun entry => { entry with value := value }
      else cache.lookup? other := by
  obtain ⟨entry, live, rfl⟩ := Option.map_eq_some_iff.mp updated
  obtain ⟨slot, found, current, occupied⟩ := lookup?_eq_some_iff.mp live
  obtain ⟨index, generation⟩ := key
  obtain ⟨otherIndex, otherGeneration⟩ := other
  simp only [live, Option.map_some, releasesAt_eq found]
  simp only [lookup?, ProxyKey.mk.injEq]
  grind [CacheSlot.generation]

/-- Replaces the value behind a key; a key that is not live changes nothing. -/
def update (cache : IdentityCache) (key : ProxyKey) (value : HostValue) : IdentityCache :=
  (cache.update? key value).getD cache

/-- Empties the slot of a live key and gives the value that was behind it. -/
def release? (cache : IdentityCache) (key : ProxyKey) : Option (HostValue × IdentityCache) :=
  (cache.lookup? key).map fun entry =>
    (entry.value,
      { cache with
        slots := cache.slots.setIfInBounds key.index ⟨cache.releasesAt key.index + 1, none⟩
        free := key.index :: cache.free
        byIdentity :=
          entry.identity.elim cache.byIdentity fun identity =>
            if cache.byIdentity.get? identity = some key then cache.byIdentity.erase identity
            else cache.byIdentity
        counters := cache.counters.countRelease })

theorem lookup?_release? {cache changed : IdentityCache} {key : ProxyKey} {value : HostValue}
    (released : cache.release? key = some (value, changed)) (other : ProxyKey) :
    changed.lookup? other = if other.index = key.index then none else cache.lookup? other := by
  obtain ⟨entry, live, final⟩ := Option.map_eq_some_iff.mp released
  obtain ⟨rfl, rfl⟩ := Prod.mk.inj final
  obtain ⟨slot, found, -, -⟩ := lookup?_eq_some_iff.mp live
  simp only [lookup?]
  grind

def releaseInstance? (cache : IdentityCache) (reference : ObjectRef) : Option IdentityCache :=
  ((cache.byIdentity.get? (.shared reference)).bind cache.release?).map Prod.snd

def size (cache : IdentityCache) : Nat :=
  (cache.slots.toList.filter fun slot => slot.entry.isSome).length

end IdentityCache

end ScriptBridge
