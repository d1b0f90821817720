import Mathlib.Logic.Equiv.Defs
import ScriptBridge.Proofs.Conversion.Choice

/-!
# Renaming the mark of a cache

Every identity cache has a mark of its own, which its proxies carry. Two contexts
that do the same work differ in these marks. A renaming of marks takes the cache
and the values of one context to those of the other, and no question about a
value depends on it.
-/

namespace ScriptBridge

/-- The proxy under the renamed mark. -/
def Proxy.retag (proxy : Proxy) (rename : Equiv.Perm CacheTag) : Proxy :=
  { proxy with tag := rename proxy.tag }

/-- The value with the mark of a proxy renamed. -/
def ScriptValue.retag (value : ScriptValue) (rename : Equiv.Perm CacheTag) : ScriptValue :=
  match value with
  | .proxy standIn => .proxy (standIn.retag rename)
  | other => other

/-- The cache under the renamed mark. -/
def IdentityCache.retag (cache : IdentityCache) (rename : Equiv.Perm CacheTag) : IdentityCache :=
  { cache with tag := rename cache.tag }

/-- The values with the marks of proxies renamed. -/
abbrev retagAll (rename : Equiv.Perm CacheTag) (values : List ScriptValue) : List ScriptValue :=
  values.map (·.retag rename)

variable {rename : Equiv.Perm CacheTag}

namespace Proxy

variable (proxy : Proxy)

@[simp]
theorem retag_key : (proxy.retag rename).key = proxy.key := rfl

@[simp]
theorem retag_type : (proxy.retag rename).type = proxy.type := rfl

@[simp]
theorem retag_tag : (proxy.retag rename).tag = rename proxy.tag := rfl

theorem retag_injective : Function.Injective (Proxy.retag · rename) := by
  intro proxy other same
  cases proxy
  cases other
  simpa [retag] using same

end Proxy

namespace ScriptValue

variable (value : ScriptValue)

@[simp]
theorem kindName_retag : (value.retag rename).kindName = value.kindName := by
  cases value <;> rfl

@[simp]
theorem isNil_retag : (value.retag rename).isNil = value.isNil := by
  cases value <;> simp [retag, isNil]

@[simp]
theorem asString?_retag : (value.retag rename).asString? = value.asString? := by
  cases value <;> rfl

@[simp]
theorem asInteger?_retag : (value.retag rename).asInteger? = value.asInteger? := by
  cases value <;> rfl

@[simp]
theorem asNumber?_retag : (value.retag rename).asNumber? = value.asNumber? := by
  cases value <;> rfl

@[simp]
theorem asTable?_retag : (value.retag rename).asTable? = value.asTable? := by
  cases value <;> rfl

@[simp]
theorem asFunction?_retag : (value.retag rename).asFunction? = value.asFunction? := by
  cases value <;> rfl

@[simp]
theorem asProxy?_retag : (value.retag rename).asProxy? = value.asProxy?.map (·.retag rename) := by
  cases value <;> rfl

@[simp]
theorem keyText_retag : (value.retag rename).keyText = value.keyText := by
  cases value <;> rfl

@[simp]
theorem ofValue?_retag : ScriptKey.ofValue? (value.retag rename) = ScriptKey.ofValue? value := by
  cases value <;> rfl

theorem retag_injective : Function.Injective (retag · rename) := by
  intro value other same
  cases value <;> cases other <;> simp_all [retag, Proxy.retag_injective.eq_iff]

theorem retag_eq_iff {other : ScriptValue} (alike : other.retag rename = other) :
    value.retag rename = other ↔ value = other :=
  ⟨fun same => retag_injective (same.trans alike.symm), fun same => same ▸ alike⟩

theorem equal_retag (other : ScriptValue) :
    (value.retag rename).equal (other.retag rename) = value.equal other := by
  cases value <;> cases other <;> simp [equal, retag, Proxy.retag_injective.eq_iff]

end ScriptValue

namespace IdentityCache

variable (cache : IdentityCache)

@[simp]
theorem lookup?_retag (key : ProxyKey) : (cache.retag rename).lookup? key = cache.lookup? key := rfl

@[simp]
theorem resolve?_retag (proxy : Proxy) :
    (cache.retag rename).resolve? (proxy.retag rename) = cache.resolve? proxy := by
  simp only [resolve?, retag, Proxy.retag_tag, Proxy.retag_key, rename.injective.eq_iff]
  rfl

@[simp]
theorem owns_retag (proxy : Proxy) : (cache.retag rename).owns (proxy.retag rename) = cache.owns proxy := by
  simp [owns]

@[simp]
theorem isReleased_retag (proxy : Proxy) :
    (cache.retag rename).isReleased (proxy.retag rename) = cache.isReleased proxy := by
  rw [isReleased, isReleased, owns_retag]
  simp only [retag, Proxy.retag_tag, rename.injective.eq_iff]

theorem represent_retag (value : HostValue) (type : TypeRef) :
    (cache.retag rename).represent value type =
      ((cache.represent value type).1.retag rename, (cache.represent value type).2.retag rename) := by
  have alike : (cache.retag rename).live? = cache.live? := rfl
  have taken : (cache.retag rename).takeSlot = (cache.takeSlot.1, cache.takeSlot.2.retag rename) := by
    simp only [takeSlot, retag]
    cases cache.free <;> rfl
  rw [represent, represent, alike]
  cases (Identity.of? value).bind cache.live? with
  | some found => rfl
  | none =>
      simp only [fill, taken]
      rfl

theorem update_retag (key : ProxyKey) (value : HostValue) :
    (cache.retag rename).update key value = (cache.update key value).retag rename := by
  simp only [update, update?, lookup?_retag]
  cases cache.lookup? key <;> rfl

theorem release?_retag (key : ProxyKey) :
    (cache.retag rename).release? key =
      (cache.release? key).map fun result => (result.1, result.2.retag rename) := by
  simp only [release?, lookup?_retag]
  cases cache.lookup? key <;> rfl

end IdentityCache

namespace Context

/-- The contexts have the same live proxies up to the mark, and the same tables of types. -/
structure Alike (rename : Equiv.Perm CacheTag) (left right : Context) : Prop where
  cache : right.cache = left.cache.retag rename
  typeOf? : ∀ id, right.heap.typeOf? id = left.heap.typeOf? id

variable {system : TypeSystem} {left right : Context}

namespace Alike

theorem compatibility (alike : Alike rename left right) (value : ScriptValue) (type : TypeRef) :
    right.compatibility system (value.retag rename) type = left.compatibility system value type := by
  have proxies (proxy : Proxy) :
      right.proxyCompatibility system (proxy.retag rename) type =
        left.proxyCompatibility system proxy type := by
    simp only [proxyCompatibility]
    rw [alike.cache, IdentityCache.isReleased_retag, IdentityCache.owns_retag, Proxy.retag_type]
  have objects : right.objectCompatibility (value.retag rename) = left.objectCompatibility value := by
    cases value with
    | proxy proxy =>
        simp only [objectCompatibility, ScriptValue.retag]
        rw [alike.cache, IdentityCache.isReleased_retag, IdentityCache.owns_retag, Proxy.retag_type]
    | table id => simp only [objectCompatibility, ScriptValue.retag, alike.typeOf?]
    | _ => rfl
  simp only [Context.compatibility]
  split
  · exact objects
  · cases value with
    | proxy proxy => exact proxies proxy
    | table id => simp only [ScriptValue.retag, alike.typeOf?]
    | _ => rfl

theorem fits (alike : Alike rename left right) (value : ScriptValue) (type : TypeRef) :
    right.fits system (value.retag rename) type = left.fits system value type := by
  rw [Context.fits, Context.fits, alike.compatibility]

theorem toHost (alike : Alike rename left right) (value : ScriptValue) (type : TypeRef) :
    right.toHost system (value.retag rename) type = left.toHost system value type := by
  cases value with
  | proxy proxy =>
      simp only [Context.toHost, ScriptValue.retag, alike.cache, IdentityCache.isReleased_retag,
        IdentityCache.resolve?_retag, Proxy.retag_type]
  | table id => simp only [Context.toHost, ScriptValue.retag, alike.typeOf?]
  | _ => rfl

theorem choose? (alike : Alike rename left right) (group : OverloadGroup) (arguments : List ScriptValue) :
    right.choose? system group (retagAll rename arguments) = left.choose? system group arguments :=
  choose?_congr (List.forall₂_map_right_iff.mpr (List.forall₂_same.mpr fun value _ => alike.compatibility value)) group

end Alike

end Context

end ScriptBridge
