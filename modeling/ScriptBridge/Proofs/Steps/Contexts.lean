import ScriptBridge.Proofs.Steps.Outcomes

/-!
# The same in two contexts

Two contexts over one host have proxies, tables and functions of their own. What means the
same in both becomes the same host value, so native code runs on it alike, and what that
gives is handed out alike, by the proxies of either context.
-/

namespace ScriptBridge

/-- Proxies of two contexts that stand for the same value of the same type, or for none. -/
structure Proxy.SameIn (left right : IdentityCache) (proxy other : Proxy) : Prop where
  type : other.type = proxy.type
  value : right.resolve? other = left.resolve? proxy
  released : right.isReleased other = left.isReleased proxy

/-- Script values that mean the same in two contexts. -/
inductive ScriptValue.SameIn (left right : Context) : ScriptValue → ScriptValue → Prop
  | plain {value : ScriptValue} (noProxy : value.asProxy? = none) (noTable : value.asTable? = none) :
      SameIn left right value value
  | table {id other : TableId} (type : right.heap.typeOf? other = left.heap.typeOf? id) :
      SameIn left right (.table id) (.table other)
  | proxy {proxy other : Proxy} (same : proxy.SameIn left.cache right.cache other) :
      SameIn left right (.proxy proxy) (.proxy other)

/--
Script values that two contexts were handed alike: the same value, or the proxies that their caches gave when they were
asked last, each for the same host value of the same type.
-/
inductive ScriptValue.HandedAlike (left right : IdentityCache) : ScriptValue → ScriptValue → Prop
  | plain {value : ScriptValue} (noProxy : value.asProxy? = none) : HandedAlike left right value value
  | proxy {earlier otherEarlier : IdentityCache} {proxy other : Proxy} (value : HostValue) (type : TypeRef)
      (given : earlier.represent value type = (proxy, left))
      (otherGiven : otherEarlier.represent value type = (other, right)) :
      HandedAlike left right (.proxy proxy) (.proxy other)

theorem Proxy.sameIn_of_live {left right : IdentityCache} {proxy other : Proxy} {value : HostValue}
    (type : other.type = proxy.type) (live : left.resolve? proxy = some value)
    (otherLive : right.resolve? other = some value) : proxy.SameIn left right other where
  type := type
  value := otherLive.trans live.symm
  released := by simp [IdentityCache.isReleased, IdentityCache.owns, live, otherLive]

namespace ScriptValue.SameIn

variable {system : TypeSystem} {left right : Context} {value other : ScriptValue}

theorem isNil (same : value.SameIn left right other) : other.isNil = value.isNil := by
  cases same <;> rfl

theorem objectCompatibility (same : value.SameIn left right other) :
    right.objectCompatibility other = left.objectCompatibility value := by
  cases same with
  | plain noProxy noTable =>
      cases value with
      | proxy proxy => cases noProxy
      | table id => cases noTable
      | _ => rfl
  | table type => rw [Context.objectCompatibility, Context.objectCompatibility, type]
  | proxy same =>
      rw [Context.objectCompatibility, Context.objectCompatibility, IdentityCache.owns, IdentityCache.owns, same.released,
        same.value, same.type]

theorem compatibility (same : value.SameIn left right other) (type : TypeRef) :
    right.compatibility system other type = left.compatibility system value type := by
  simp only [Context.compatibility, same.objectCompatibility]
  split
  · rfl
  · cases same with
    | plain noProxy noTable =>
        cases value with
        | proxy proxy => cases noProxy
        | table id => cases noTable
        | _ => rfl
    | table known => simp only [known]
    | proxy same =>
        dsimp only
        rw [Context.proxyCompatibility, Context.proxyCompatibility, IdentityCache.owns, IdentityCache.owns, same.released,
          same.value, same.type]

theorem fits (same : value.SameIn left right other) (type : TypeRef) :
    right.fits system other type = left.fits system value type := by
  rw [Context.fits, Context.fits, same.compatibility]

theorem toHost (same : value.SameIn left right other) (type : TypeRef) :
    right.toHost system other type = left.toHost system value type := by
  cases same with
  | plain noProxy noTable =>
      cases value with
      | proxy proxy => cases noProxy
      | table id => cases noTable
      | _ => rfl
  | table known => simp only [Context.toHost, ScriptValue.kindName, known]
  | proxy same => simp only [Context.toHost, same.released, same.value, same.type]

end ScriptValue.SameIn

open Bridge

variable {host : Host} {left right : World}

namespace Host

theorem accord_toHost {value other : ScriptValue} (same : value.SameIn left.context right.context other)
    (store : right.store = left.store) (type : TypeRef) :
    Accord (fun _ _ => Eq) (exec (host.toHost value type) left) (exec (host.toHost other type) right) := by
  rw [exec_toHost, exec_toHost, same.toHost]
  intro _ _
  cases left.context.toHost host.system value type with
  | error error => exact ⟨store, .error error⟩
  | ok converted => exact ⟨store, .ok rfl⟩

/-- What is written back goes to the cache. -/
theorem exists_exec_writeBack {ε : Type} (key : Option ProxyKey) (receiver : Option HostValue) (world : World) :
    ∃ after, exec (writeBack key receiver : Bridge ε Unit) world = (.ok (), after) ∧ after.store = world.store := by
  cases key with
  | none => exact ⟨world, rfl, rfl⟩
  | some key =>
      cases receiver with
      | none => exact ⟨world, rfl, rfl⟩
      | some value =>
          simp only [writeBack]
          split
          · exact ⟨_, exec_modifyContext _ _, rfl⟩
          · exact ⟨world, rfl, rfl⟩

/-- The same native code runs on the same host values; only its receiver goes back to different proxies. -/
theorem accord_runAccessor (store : right.store = left.store) (adjust : HostException → ScriptError) (owner : TypeRef)
    (method : MethodDef) (value : HostValue) (key otherKey : ProxyKey) (arguments : List HostValue) :
    Accord (fun _ _ => Eq)
      (exec (ExceptT.adapt adjust (host.runAccessor owner method (some (value, key)) arguments)) left)
      (exec (ExceptT.adapt adjust (host.runAccessor owner method (some (value, otherKey)) arguments)) right) := by
  intro _ _
  rw [exec_adapt, exec_adapt, runAccessor, runAccessor, exec_bind, exec_bind, exec_runNative, exec_runNative, store]
  simp only [Option.map_some]
  generalize ((method.body.run host.natives host.system ⟨owner, some value, arguments, []⟩).run).run left.store = ran
  rcases ran with ⟨exception | completion, changed⟩
  · exact ⟨rfl, .error _⟩
  · rcases exists_exec_writeBack (some key) completion.receiver { left with store := changed } with
      ⟨after, written, kept⟩
    rcases exists_exec_writeBack (some otherKey) completion.receiver { right with store := changed } with
      ⟨otherAfter, otherWritten, otherKept⟩
    dsimp only
    rw [exec_bind_of_ok written, exec_bind_of_ok otherWritten]
    exact ⟨otherKept.trans kept.symm, .ok rfl⟩

theorem handedAlike_of_push (store : right.store = left.store) {value : HostValue} {shown other : ScriptValue}
    {after otherAfter : World} (run : exec (host.push value) left = (.ok shown, after))
    (otherRun : exec (host.push value) right = (.ok other, otherAfter)) :
    shown.HandedAlike after.context.cache otherAfter.context.cache other := by
  rcases exec_pushBy_eq_ok run with ⟨simple, -⟩ | ⟨type, middle, proxied, typed, -, rfl, rfl⟩
  · rcases exec_pushBy_eq_ok otherRun with ⟨otherSimple, -⟩ | ⟨_, _, otherProxied, -⟩
    · obtain rfl := Option.some.inj (simple.symm.trans otherSimple)
      exact .plain (simple_of_toScript? simple).2
    · rw [simple] at otherProxied
      cases otherProxied
  · rcases exec_pushBy_eq_ok otherRun with ⟨otherSimple, -⟩ | ⟨otherType, otherMiddle, -, otherTyped, -, rfl, rfl⟩
    · rw [proxied] at otherSimple
      cases otherSimple
    · obtain rfl : type = otherType := by
        rw [store, typed] at otherTyped
        exact Option.some.inj otherTyped
      exact .proxy value type rfl rfl

/-- Whatever else the contexts have, the same host value is handed out alike. -/
theorem accord_push (store : right.store = left.store) (value : HostValue) :
    Accord ScriptValue.HandedAlike (exec (Bridge.asScript (host.push value)) left)
      (exec (Bridge.asScript (host.push value)) right) := by
  intro binds otherBinds
  simp only [Bridge.asScript, exec_adapt] at binds otherBinds ⊢
  cases run : exec (host.push value) left with
  | mk result after =>
      cases otherRun : exec (host.push value) right with
      | mk otherResult otherAfter =>
          have kept := store_eq_of_bindSteps ((binds_push value).chain run)
          have otherKept := store_eq_of_bindSteps ((binds_push value).chain otherRun)
          rw [run] at binds
          rw [otherRun] at otherBinds
          refine ⟨(otherKept.trans store).trans kept.symm, ?_⟩
          cases result with
          | error cause => exact absurd rfl (binds cause)
          | ok shown =>
              cases otherResult with
              | error cause => exact absurd rfl (otherBinds cause)
              | ok other => exact .ok (handedAlike_of_push store run otherRun)

end Host

end ScriptBridge
