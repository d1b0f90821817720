import ScriptBridge.Proofs.Host.Slots
import ScriptBridge.Proofs.Natives.WriteBack
import ScriptBridge.Proofs.Realms.FieldAccess

/-!
# Fields are read back as they were written

A read that comes to the slot of a field hands out the value of the field, and a write
puts what it is passed there, converted to the type of the field. The write changes
nothing else on the host: a shared instance is written where it is, a copy takes the place
of the copy behind its proxy, and a static field is shared by the tables of all types that
inherit it.
-/

namespace ScriptBridge

open Bridge

/--
The instance behind a proxy was made new from its type, or the statics of the type of a field were given their
initial values; since then slots have only been written.
-/
def World.Holds (system : TypeSystem) (field : Field) (target : ScriptValue) (world : World) : Prop :=
  match target with
  | .proxy proxy =>
      ∃ value object written, world.context.cache.resolve? proxy = some value ∧
        world.store.instanceOf? value = some object ∧
        object.storage = (system.newInstance proxy.type).storage.insertAll written
  | _ => ∃ written, world.store.staticsOf field.owner =
      (system.definition field.owner).staticStorage.insertAll written

/--
Nothing but a field of the target has changed: no other static, no other instance and no other slot of the target,
and every live proxy stands for what it stood for, but for the field of a copy.
-/
structure World.ChangesOnly (field : Field) (target : ScriptValue) (before after : World) : Prop where
  statics : ∀ type name, after.store.staticSlot? type name = before.store.staticSlot? type name ∨
    field.definition.isStatic = true ∧ type = field.owner ∧ name = field.definition.name
  instances : ∀ reference object, before.store.instance? reference = some object →
    ∃ later, after.store.instance? reference = some later ∧
      (later = object ∨
        (∃ proxy, target = .proxy proxy ∧ before.context.cache.resolve? proxy = some (.object reference)) ∧
          object.SameBut field.definition.name later)
  proxies : ∀ key entry, before.context.cache.lookup? key = some entry →
    ∃ later, after.context.cache.lookup? key = some later ∧
      (later = entry ∨
        ∃ proxy copy copied, target = .proxy proxy ∧ proxy.key = key ∧ entry.value = .copied copy ∧
          later = { entry with value := .copied copied } ∧ copy.SameBut field.definition.name copied)

/-- What a field is read from and written to, with the key of its proxy: the instance behind a target, or nothing. -/
inductive Context.Receives (host : Host) (context : Context) (field : Field) :
    ScriptValue → Option (HostValue × ProxyKey) → Prop
  | onInstance {proxy : Proxy} {value : HostValue} (ofInstance : field.definition.isStatic = false)
      (live : context.cache.resolve? proxy = some value)
      (fits : context.fits host.system (.proxy proxy) field.owner = true) :
      Receives host context field (.proxy proxy) (some (value, proxy.key))
  | onType (id : TableId) (ofType : field.definition.isStatic = true) : Receives host context field (.table id) none

namespace Context

variable {host : Host} {before after context : Context} {field : Field} {target : ScriptValue}
  {receiver : Option (HostValue × ProxyKey)}

theorem fits_eq_of_same (heap : after.heap = before.heap) (cache : after.cache = before.cache) (system : TypeSystem)
    (value : ScriptValue) (type : TypeRef) : after.fits system value type = before.fits system value type := by
  simp only [fits, compatibility, objectCompatibility, proxyCompatibility, heap, cache]

theorem toHost_eq_of_same (heap : after.heap = before.heap) (cache : after.cache = before.cache) (system : TypeSystem)
    (value : ScriptValue) (type : TypeRef) : after.toHost system value type = before.toHost system value type := by
  simp only [toHost, heap, cache]

theorem Receives.of_same (receives : before.Receives host field target receiver) (heap : after.heap = before.heap)
    (cache : after.cache = before.cache) : after.Receives host field target receiver := by
  cases receives with
  | onInstance ofInstance live fits =>
      exact .onInstance ofInstance (by rw [cache, live]) ((fits_eq_of_same heap cache _ _ _).trans fits)
  | onType id ofType => exact .onType id ofType

theorem Reaches.receives (reaches : context.Reaches host field target) (wired : context.Wired host.system) :
    ∃ receiver, context.Receives host field target receiver := by
  cases reaches with
  | onInstance ofInstance live isBound inherited =>
      rcases Option.isSome_iff_exists.mp live with ⟨value, resolved⟩
      exact ⟨_, .onInstance ofInstance resolved (fits_of_lookupChain wired resolved isBound inherited)⟩
  | onType id ofType => exact ⟨_, .onType id ofType⟩

end Context

namespace Host

variable {host : Host} {world begun after : World} {field : Field} {name : String} {target item : ScriptValue}
  {slot : MemberSlot} {receiver : Option (HostValue × ProxyKey)} {current : HostValue}

theorem exec_memberReceiver_of_receives (receives : world.context.Receives host field target receiver)
    (activity : String) (more : List ScriptValue) :
    exec (host.memberReceiver field.definition.isStatic field.owner activity (target.asReceiver ++ more)) world =
      (.ok receiver, world) := by
  cases receives with
  | onInstance ofInstance live fits =>
      rw [memberReceiver, ofInstance, if_neg Bool.false_ne_true]
      exact exec_bind_of_ok (exec_expectInstance_of_live live fits activity) _
  | onType id ofType =>
      rw [memberReceiver, ofType]
      rfl

/-- The getter of a field hands out the value of the field. -/
theorem exec_getField_of_receives (receives : world.context.Receives host field target receiver)
    (stored : world.store.readField? field (receiver.map Prod.fst) = some current) :
    exec (host.getField field target.asReceiver) world =
      exec (do return [← Bridge.asScript (host.push current)]) world := by
  have received := exec_memberReceiver_of_receives receives ("get field " ++ field.definition.name) []
  rw [List.append_nil] at received
  rw [getField, exec_bind_of_ok received, exec_bind_of_ok (exec_store world), stored]

/-- The call of a slot for the getter of a field: the first use makes the getter, and then it hands out the value. -/
theorem exec_firstResult_getter {binding : TypeBinding} {place : MemberTable × String}
    (bound : world.context.binding? field.owner = some binding) (found : binding.slots.get? place = some slot)
    (leads : slot.LeadsTo host world.context field.owner place (.fieldGetter field))
    (receives : world.context.Receives host field target receiver)
    (stored : world.store.readField? field (receiver.map Prod.fst) = some current) :
    exec (firstResult host.invoke slot.handle target.asReceiver) world =
      exec (do host.makeMember slot; Bridge.asScript (host.push current)) world := by
  rcases exec_invoke_slot bound found leads target.asReceiver with ⟨made, called⟩
  rw [firstResult, exec_bind, called, exec_bind, exec_bind]
  generalize exec (host.makeMember slot) world = run at made
  cases made with
  | full => rfl
  | @made after store cache same =>
      dsimp only
      rw [runMember, exec_getField_of_receives (receives.of_same same.heap cache) (by rw [store, stored]), exec_bind]
      cases exec (Bridge.asScript (host.push current)) after with
      | mk result last => cases result <;> rfl

/-- A read that comes to the getter of a field has made the getter, and hands out the value of the field. -/
theorem exec_index_field (wired : begun.context.Wired host.system)
    (ready : exec (host.ready target) world = (.ok (), begun))
    (gets : begun.context.GetsField host field name target slot)
    (leads : slot.LeadsTo host begun.context field.owner (field.member name .fieldGet).place (.fieldGetter field))
    (receives : begun.context.Receives host field target receiver)
    (stored : begun.store.readField? field (receiver.map Prod.fst) = some current) :
    exec (host.index target (.string name)) world =
        exec (do host.makeMember slot; Bridge.asScript (host.push current)) begun ∧
      host.Made (field.member name .fieldGet).place begun (exec (host.makeMember slot) begun) := by
  rcases gets.slot? with ⟨binding, bound, found⟩
  rw [exec_index_of_getsField wired ready gets, exec_firstResult_getter bound found leads receives stored]
  exact ⟨rfl, (exec_invoke_slot bound found leads []).1⟩

/-- Handing out a value through a getter can only fail to make the getter or to bind a type. -/
theorem exec_handOut_ne {place : MemberTable × String}
    (made : host.Made place world (exec (host.makeMember slot) world)) (value : HostValue) (type member : String) :
    (exec (do host.makeMember slot; Bridge.asScript (host.push value)) world).1 ≠
      .error (.memberNotFound type member) := by
  rw [exec_bind]
  generalize exec (host.makeMember slot) world = run at made
  cases made with
  | full => exact fun impossible => by cases impossible
  | @made after =>
      dsimp only
      rw [Bridge.asScript, exec_adapt]
      cases (exec (host.push value) after).1 with
      | ok => exact fun impossible => by cases impossible
      | error => exact fun impossible => by cases impossible

/-- Handing out a value through a getter changes nothing that was there. -/
theorem untouched_handOut {place : MemberTable × String} (consistent : world.context.cache.Consistent)
    (made : host.Made place world (exec (host.makeMember slot) world)) (value : HostValue) :
    world.Untouched (exec (do host.makeMember slot; Bridge.asScript (host.push value)) world).2 := by
  rw [exec_bind]
  generalize exec (host.makeMember slot) world = run at made
  cases made with
  | full =>
      rcases host.withExtensions_eq world with same | ⟨-, same⟩ <;> rw [same] <;> exact .of_same rfl rfl
  | @made after store cache =>
      have kept := (respects_untouched host after).push value after
        (Invariant.untouched_start (by rw [cache]; exact consistent))
      exact .trans (.of_same store cache) (kept.holds fun _ => id).2

/-- The setter of a field writes what it is passed, converted to the type of the field, if there is a slot to write. -/
theorem setField_written_or_lost {results : List ScriptValue}
    (receives : world.context.Receives host field target receiver)
    (run : exec (host.setField field (target.asReceiver ++ [item])) world = (.ok results, after)) :
    ∃ converted, world.context.toHost host.system item field.definition.type = .ok converted ∧
      ((∃ written store, world.store.writeField? field (receiver.map Prod.fst) converted = some (written, store) ∧
        exec (writeBack (receiver.map Prod.snd) written : Bridge ScriptError Unit) { world with store := store } =
          (.ok (), after)) ∨
      world.store.writeField? field (receiver.map Prod.fst) converted = none ∧ after = world) := by
  have passed : argumentAt (target.asReceiver ++ [item]) (if field.definition.isStatic then 0 else 1) = item := by
    cases receives with
    | onInstance ofInstance => rw [ofInstance]; rfl
    | onType id ofType => rw [ofType]; rfl
  rw [setField, exec_bind_of_ok (exec_memberReceiver_of_receives receives _ [item]), passed,
    exec_bind_of_ok (exec_fits item field.definition.type world)] at run
  split at run
  · cases (Prod.mk.inj run).1
  · rw [exec_bind, exec_toHost] at run
    cases converts : world.context.toHost host.system item field.definition.type with
    | error error => rw [converts] at run; cases (Prod.mk.inj run).1
    | ok converted =>
        rw [converts] at run
        dsimp only at run
        rw [exec_bind_of_ok (exec_store world)] at run
        refine ⟨converted, rfl, ?_⟩
        cases wrote : world.store.writeField? field (receiver.map Prod.fst) converted with
        | none =>
            rw [wrote] at run
            exact .inr ⟨rfl, (Prod.mk.inj run).2.symm⟩
        | some change =>
            rcases change with ⟨written, store⟩
            rw [wrote] at run
            dsimp only at run
            rw [exec_bind_of_ok (exec_setStore store world)] at run
            rcases exec_bind_eq_ok run with ⟨_, last, writing, finished⟩
            obtain rfl := (Prod.mk.inj finished).2
            exact .inl ⟨written, store, rfl, writing⟩

/-- What can be read is written, and a copy is written back. -/
theorem exec_setField_eq_ok {results : List ScriptValue}
    (receives : world.context.Receives host field target receiver)
    (stored : world.store.readField? field (receiver.map Prod.fst) = some current)
    (run : exec (host.setField field (target.asReceiver ++ [item])) world = (.ok results, after)) :
    ∃ converted written store, world.context.toHost host.system item field.definition.type = .ok converted ∧
      world.store.Writes field converted (receiver.map Prod.fst) written store ∧
      exec (writeBack (receiver.map Prod.snd) written : Bridge ScriptError Unit) { world with store := store } =
        (.ok (), after) := by
  rcases setField_written_or_lost receives run with ⟨converted, converts, ⟨written, store, wrote, writing⟩ | ⟨lost, -⟩⟩
  · exact ⟨converted, written, store, converts, HostStore.writes_of_writeField? wrote, writing⟩
  · rcases HostStore.exists_writes_of_readField? stored converted with ⟨written, store, wrote, -⟩
    cases lost.symm.trans wrote

/-- Writing a receiver back changes what a proxy stands for, and nothing else. -/
theorem exec_writeBack_cache {ε : Type} (consistent : world.context.cache.Consistent) (back : Option ProxyKey)
    (left : Option HostValue) :
    ∃ cache, exec (writeBack back left : Bridge ε Unit) world =
        (.ok (), { world with context := { world.context with cache := cache } }) ∧
      cache.tag = world.context.cache.tag ∧ cache.Consistent ∧
      world.WritesBack { world with context := { world.context with cache := cache } } back left := by
  have changes : ∃ cache, exec (writeBack back left : Bridge ε Unit) world =
      (.ok (), { world with context := { world.context with cache := cache } }) ∧
        cache.tag = world.context.cache.tag := by
    simp only [writeBack]
    split
    next key value =>
      split
      next =>
        refine ⟨world.context.cache.update key value, rfl, ?_⟩
        rw [IdentityCache.update, IdentityCache.update?]
        cases world.context.cache.lookup? key <;> rfl
      next => exact ⟨_, rfl, rfl⟩
    next => exact ⟨_, rfl, rfl⟩
  rcases changes with ⟨cache, wroteBack, tag⟩
  rcases exec_writeBack (ε := ε) consistent back left with ⟨last, again, consistentThen, returned⟩
  obtain rfl := (Prod.mk.inj (again.symm.trans wroteBack)).2
  exact ⟨cache, wroteBack, tag, consistentThen, returned⟩

theorem wired_assign {key : ScriptValue} (wired : world.context.Wired host.system)
    (run : exec (host.assign target key item) world = (.ok (), after)) : after.context.Wired host.system :=
  ((respects_wiring host).assignBy (respects_wiring host).invokes target key item).holds_of_ok wired run

theorem consistent_assign {key : ScriptValue} (consistent : world.context.cache.Consistent)
    (run : exec (host.assign target key item) world = (.ok (), after)) : after.context.cache.Consistent :=
  ((respects_consistency host).assignBy (respects_consistency host).invokes target key item).holds_of_ok consistent run

/-- A write that comes to the setter of a field makes the setter, if this is its first use, and runs it. -/
theorem exec_assign_eq_ok (wired : begun.context.Wired host.system)
    (ready : exec (host.ready target) world = (.ok (), begun))
    (sets : begun.context.SetsField host field name target slot)
    (leads : slot.LeadsTo host begun.context field.owner (field.member name .fieldSet).place (.fieldSetter field))
    (run : exec (host.assign target (.string name) item) world = (.ok (), after)) :
    ∃ middle results, middle.store = begun.store ∧ middle.context.cache = begun.context.cache ∧
      begun.context.SameBut host (field.member name .fieldSet).place middle.context ∧
      exec (host.setField field (target.asReceiver ++ [item])) middle = (.ok results, after) := by
  rcases sets.slot? with ⟨binding, bound, found⟩
  rcases exec_invoke_slot bound found leads (target.asReceiver ++ [item]) with ⟨made, called⟩
  rw [exec_assign_of_setsField wired ready sets] at run
  rcases exec_discard_eq_ok run with ⟨results, invoked⟩
  rw [called] at invoked
  rcases exec_bind_eq_ok invoked with ⟨_, middle, making, setting⟩
  rw [making] at made
  cases made with
  | made store cache same => exact ⟨middle, results, store, cache, same, setting⟩

/-- A write that comes to the setter of a field has made the setter, and has written what it was passed. -/
theorem exec_assign_field (wired : begun.context.Wired host.system) (consistent : begun.context.cache.Consistent)
    (ready : exec (host.ready target) world = (.ok (), begun))
    (sets : begun.context.SetsField host field name target slot)
    (leads : slot.LeadsTo host begun.context field.owner (field.member name .fieldSet).place (.fieldSetter field))
    (receives : begun.context.Receives host field target receiver)
    (stored : begun.store.readField? field (receiver.map Prod.fst) = some current)
    (run : exec (host.assign target (.string name) item) world = (.ok (), after)) :
    ∃ converted written, begun.context.toHost host.system item field.definition.type = .ok converted ∧
      begun.context.SameBut host (field.member name .fieldSet).place after.context ∧
      begun.store.Writes field converted (receiver.map Prod.fst) written after.store ∧
      begun.WritesBack after (receiver.map Prod.snd) written ∧
      after.context.cache.tag = begun.context.cache.tag := by
  rcases exec_assign_eq_ok wired ready sets leads run with ⟨middle, results, store, cache, same, setting⟩
  rcases exec_setField_eq_ok (receives.of_same same.heap cache) (by rw [store, stored]) setting with
    ⟨converted, written, wrote, converts, writes, writing⟩
  rw [Context.toHost_eq_of_same same.heap cache] at converts
  rw [store] at writes
  have tidy : ({ middle with store := wrote } : World).context.cache.Consistent := by rw [cache]; exact consistent
  rcases exec_writeBack_cache tidy (receiver.map Prod.snd) written with ⟨changed, wroteBack, tag, -, returned⟩
  obtain rfl := (Prod.mk.inj (wroteBack.symm.trans writing)).2
  refine ⟨converted, written, converts, same.trans (.of_bindings_eq rfl rfl (.refl _) rfl), writes, ?_,
    tag.trans (congrArg _ cache)⟩
  intro key entry live
  exact returned key entry (by rwa [cache])

end Host

namespace World

variable {host : Host} {start world after : World} {field : Field} {target source : ScriptValue}
  {receiver again : Option (HostValue × ProxyKey)} {converted : HostValue} {written : Option HostValue}

/-- A live proxy stands for what was written back to it, if that is a copy. -/
theorem WritesBack.resolve? {proxy : Proxy} {value left : HostValue}
    (returned : world.WritesBack after (some proxy.key) (some left))
    (tag : after.context.cache.tag = world.context.cache.tag)
    (live : world.context.cache.resolve? proxy = some value) :
    after.context.cache.resolve? proxy = some (if left.isCopied then left else value) := by
  rcases IdentityCache.resolve?_eq_some_iff.mp live with ⟨own, entry, found, rfl⟩
  refine IdentityCache.resolve?_eq_some_iff.mpr ⟨own.trans tag.symm, _, returned _ _ found, ?_⟩
  simp only [CacheEntry.writtenBack, true_and]
  split <;> rfl

theorem WritesBack.owns {back : Option ProxyKey} (returned : world.WritesBack after back written)
    (tag : after.context.cache.tag = world.context.cache.tag) {proxy : Proxy}
    (live : world.context.cache.owns proxy = true) : after.context.cache.owns proxy = true := by
  rcases Option.isSome_iff_exists.mp live with ⟨value, resolved⟩
  rcases IdentityCache.resolve?_eq_some_iff.mp resolved with ⟨own, entry, found, -⟩
  rw [IdentityCache.owns, Option.isSome_iff_exists]
  exact ⟨_, IdentityCache.resolve?_eq_some_iff.mpr ⟨own.trans tag.symm, _, returned _ _ found, rfl⟩⟩

/-- What was made with a slot for the field has it still. -/
theorem Holds.readField? (held : world.Holds host.system field target)
    (declared : field ∈ host.system.fields field.owner) (wired : world.context.Wired host.system)
    (reaches : world.context.Reaches host field target) (receives : world.context.Receives host field target receiver) :
    ∃ current, world.store.readField? field (receiver.map Prod.fst) = some current := by
  cases receives with
  | @onInstance proxy value ofInstance live fits =>
      rcases held with ⟨same, object, written, resolved, present, stored⟩
      obtain rfl := Option.some.inj (live.symm.trans resolved)
      have inherited : field.owner ∈ host.system.lineage proxy.type := by
        cases reaches with
        | onInstance _ _ isBound inherited => exact Context.mem_lineage_of_lookupChain wired isBound inherited
      have made := TypeSystem.isSome_slot_newInstance inherited
        (TypeSystem.isSome_instanceStorage declared ofInstance)
      have slot : (object.storage.get? field.definition.name).isSome = true := by
        rw [stored]
        exact FinMap.isSome_get?_insertAll made written
      rcases Option.isSome_iff_exists.mp slot with ⟨current, found⟩
      refine ⟨current, ?_⟩
      simp [HostStore.readField?, ofInstance, HostStore.slot?, present, found]
  | onType id ofType =>
      rcases held with ⟨written, stored⟩
      have slot : (world.store.staticSlot? field.owner field.definition.name).isSome = true := by
        rw [HostStore.staticSlot?, stored]
        exact FinMap.isSome_get?_insertAll (TypeSystem.isSome_staticStorage declared ofType) written
      rcases Option.isSome_iff_exists.mp slot with ⟨current, found⟩
      exact ⟨current, by simp [HostStore.readField?, ofType, found]⟩

/-- What the target is afterwards has the value that was written; a static field is shared by all targets. -/
theorem readField?_of_writes {store : HostStore} (receives : world.context.Receives host field target receiver)
    (writes : world.store.Writes field converted (receiver.map Prod.fst) written store)
    (returned : world.WritesBack after (receiver.map Prod.snd) written)
    (tag : after.context.cache.tag = world.context.cache.tag)
    (reread : after.context.Receives host field source again)
    (same : field.definition.isStatic = false → source = target) :
    store.readField? field (again.map Prod.fst) = some converted := by
  have read := writes.readField?
  cases receives with
  | onType id ofType =>
      rw [HostStore.readField?, if_pos ofType] at read ⊢
      exact read
  | @onInstance proxy value ofInstance live fits =>
      obtain rfl := same ofInstance
      cases reread with
      | @onInstance _ later _ liveAgain =>
          have left : written = some later := by
            cases writes with
            | onType _ ofType =>
                rw [ofInstance] at ofType
                cases ofType
            | onShared => exact (returned.resolve? tag live).symm.trans liveAgain
            | onCopy => exact (returned.resolve? tag live).symm.trans liveAgain
          rw [← read, left]
          rfl

theorem changesOnly_of_writes {store : HostStore} (receives : world.context.Receives host field target receiver)
    (writes : world.store.Writes field converted (receiver.map Prod.fst) written store) (stored : after.store = store)
    (returned : world.WritesBack after (receiver.map Prod.snd) written) : world.ChangesOnly field target after where
  statics := by
    rw [stored]
    exact writes.staticSlot?
  instances reference object present := by
    rw [stored]
    rcases writes.instance? present with ⟨later, found, same | ⟨is, changed⟩⟩
    · exact ⟨later, found, .inl same⟩
    · refine ⟨later, found, .inr ⟨?_, changed⟩⟩
      cases receives with
      | onInstance ofInstance live fits =>
          obtain rfl := Option.some.inj is
          exact ⟨_, rfl, live⟩
      | onType => cases is
  proxies key entry live := by
    refine ⟨_, returned key entry live, ?_⟩
    cases receives with
    | onType id ofType => exact .inl rfl
    | @onInstance proxy value ofInstance resolved fits =>
        cases writes with
        | onType _ ofType =>
            rw [ofInstance] at ofType
            cases ofType
        | onShared => exact .inl (if_neg fun both => Bool.false_ne_true both.2)
        | onCopy copy =>
            by_cases here : key = proxy.key
            · subst here
              refine .inr ⟨proxy, copy, _, rfl, rfl, ?_, if_pos ⟨rfl, rfl⟩, copy.sameBut_write _ _⟩
              rcases IdentityCache.resolve?_eq_some_iff.mp resolved with ⟨-, found, present, same⟩
              obtain rfl := Option.some.inj (live.symm.trans present)
              exact same
            · exact .inl (if_neg fun both => here both.1)

/-- What was untouched at first and changes only in a field then has changed only in that field. -/
theorem Untouched.changesOnly (untouched : start.Untouched world) (changes : world.ChangesOnly field target after)
    (live : ∀ proxy value, target = .proxy proxy → world.context.cache.resolve? proxy = some value →
      start.context.cache.resolve? proxy = some value) : start.ChangesOnly field target after where
  statics type name := by
    rw [show start.store.staticSlot? type name = world.store.staticSlot? type name by
      rw [HostStore.staticSlot?, HostStore.staticSlot?, HostStore.staticsOf, HostStore.staticsOf, untouched.statics]]
    exact changes.statics type name
  instances reference object present := by
    rcases changes.instances reference object (untouched.instances _ _ present) with
      ⟨later, found, same | ⟨⟨proxy, is, resolved⟩, changed⟩⟩
    · exact ⟨later, found, .inl same⟩
    · exact ⟨later, found, .inr ⟨⟨proxy, is, live proxy _ is resolved⟩, changed⟩⟩
  proxies key entry alive := changes.proxies key entry (untouched.proxies _ _ alive)

end World

/-! ## Writes that are kept, and writes that are lost -/

namespace HostStore

variable {store : HostStore} {field : Field} {value : HostValue}

/-- There is nothing to write into exactly if the value is no instance. -/
theorem writeField?_eq_none_iff (ofInstance : field.definition.isStatic = false) (converted : HostValue) :
    store.writeField? field (some value) converted = none ↔ store.instanceOf? value = none := by
  rw [writeField?, ofInstance, if_neg Bool.false_ne_true]
  cases value with
  | object reference => cases present : store.instance? reference <;> simp [writeSlot?, instanceOf?, present]
  | _ => simp [writeSlot?, instanceOf?]

theorem readField?_eq_none (ofInstance : field.definition.isStatic = false) (none : store.instanceOf? value = none) :
    store.readField? field (some value) = .none := by
  rw [readField?, ofInstance, if_neg Bool.false_ne_true, Option.bind_some, slot?, none, Option.bind_none]

end HostStore

namespace Host

variable {host : Host} {world begun after : World} {field : Field} {name : String} {proxy : Proxy} {item : ScriptValue}
  {slot : MemberSlot} {value : HostValue}

/-- After a write through a proxy its value has what was written in the slot of the field, or all is as it was. -/
theorem exec_assign_proxy (wired : begun.context.Wired host.system) (consistent : begun.context.cache.Consistent)
    (ready : exec (host.ready (.proxy proxy)) world = (.ok (), begun))
    (sets : begun.context.SetsField host field name (.proxy proxy) slot)
    (leads : slot.LeadsTo host begun.context field.owner (field.member name .fieldSet).place (.fieldSetter field))
    (live : begun.context.cache.resolve? proxy = some value)
    (run : exec (host.assign (.proxy proxy) (.string name) item) world = (.ok (), after)) :
    ∃ converted now, begun.context.toHost host.system item field.definition.type = .ok converted ∧
      after.context.cache.resolve? proxy = some now ∧
      ((begun.store.instanceOf? value ≠ none ∧ after.store.readField? field (some now) = some converted) ∨
        begun.store.instanceOf? value = none ∧ now = value ∧ after.store = begun.store ∧
          after.store.readField? field (some now) = none) := by
  rcases exec_assign_eq_ok wired ready sets leads run with ⟨middle, results, store, cache, same, setting⟩
  rcases sets.inReach.receives wired with ⟨receiver, receives⟩
  cases receives with
  | @onInstance _ found ofInstance resolved fits =>
      obtain rfl := Option.some.inj (resolved.symm.trans live)
      have receives := (Context.Receives.onInstance ofInstance resolved fits).of_same same.heap cache
      rcases setField_written_or_lost receives setting with ⟨converted, converts, written | lost⟩
      · rcases written with ⟨written, changed, wrote, writing⟩
        rw [Context.toHost_eq_of_same same.heap cache] at converts
        rw [store, Option.map_some] at wrote
        have tidy : ({ middle with store := changed } : World).context.cache.Consistent := by rwa [cache]
        have liveThen : ({ middle with store := changed } : World).context.cache.resolve? proxy = some found := by
          rwa [cache]
        rcases exec_writeBack_cache tidy (some proxy.key) written with ⟨_, wroteBack, tag, -, returned⟩
        obtain rfl := (Prod.mk.inj (wroteBack.symm.trans writing)).2
        have writes := HostStore.writes_of_writeField? wrote
        have isInstance : begun.store.instanceOf? found ≠ none := fun noInstance => by
          rw [(HostStore.writeField?_eq_none_iff ofInstance converted).mpr noInstance] at wrote
          cases wrote
        obtain ⟨left, rfl, stays⟩ : ∃ left, written = some left ∧ (if left.isCopied then left else found) = left := by
          cases writes with
          | onType target isStatic =>
              rw [ofInstance] at isStatic
              cases isStatic
          | onShared => exact ⟨_, rfl, rfl⟩
          | onCopy => exact ⟨_, rfl, rfl⟩
        refine ⟨converted, left, converts, ?_, .inl ⟨isInstance, writes.readField?⟩⟩
        exact (returned.resolve? tag liveThen).trans (congrArg some stays)
      · rcases lost with ⟨lost, rfl⟩
        rw [Context.toHost_eq_of_same same.heap cache] at converts
        rw [store] at lost
        have noInstance := (HostStore.writeField?_eq_none_iff ofInstance converted).mp lost
        refine ⟨converted, found, converts, by rwa [cache], .inr ⟨noInstance, rfl, store, ?_⟩⟩
        rw [store]
        exact HostStore.readField?_eq_none ofInstance noInstance

end Host

end ScriptBridge
