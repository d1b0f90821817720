import ScriptBridge.Proofs.Natives.Targets
import ScriptBridge.Proofs.Steps.Resolving

/-!
# Script operations and their targets

A call of a generated function works on its first argument, and a read or a write of an
instance on that instance. Along the chain of types nothing is worked on until one of
them takes the key.
-/

namespace ScriptBridge

open Bridge World

/-- The callable that a call of a handle runs: its own, or the one that its placeholder is resolved to. -/
inductive Host.Runs (host : Host) (world : World) (handle : CallableHandle) (callable : Callable) : Prop
  | own (registered : world.context.callable? handle = some callable) (generated : callable.isGenerated = true)
  | pending {member : PendingMember} {made : CallableHandle} {after : World}
      (registered : world.context.callable? handle = some (.placeholder member))
      (resolved : exec (host.resolveMember member) world = (.ok made, after))
      (found : after.context.callable? made = some callable)

/-- Reading a key of an instance runs a getter, or reads an item. -/
def Host.Reads (host : Host) (callable : Callable) : Prop :=
  (∃ type name, callable.Serves host.system type (.getters, name)) ∨
    ∃ type properties, callable = .itemGetter type properties

/-- Writing a key of an instance runs a setter, or writes an item. -/
def Host.Writes (host : Host) (callable : Callable) : Prop :=
  (∃ type name, callable.Serves host.system type (.setters, name)) ∨
    ∃ type properties, callable = .itemSetter type properties

namespace Host

variable {host : Host} {start world after : World}

/-- A placeholder is resolved to a callable that serves its place. -/
theorem serves_of_resolved {member : PendingMember} {handle : CallableHandle} {callable : Callable}
    (wired : world.context.Wired host.system)
    (resolved : exec (host.resolveMember member) world = (.ok handle, after))
    (found : after.context.callable? handle = some callable) :
    callable.Serves host.system member.type (member.table, member.name) := by
  have leads := host.resolved_resolveMember member world
  rw [resolved] at leads
  cases leads with
  | @present binding handle bound made =>
      have slotWired := (wired.bindings _ _ bound).slots _ (FinMap.mem_entries_of_get? made)
      rcases slotWired with ⟨known, registered, serves⟩
      rcases Option.some.inj (found.symm.trans registered) with rfl
      exact serves
  | @made binding listed handle after bound waits pending registered made =>
      rcases declaredBy_of_pending? wired pending with ⟨declared, place⟩
      rw [callable?_settled] at found
      rcases Option.some.inj (found.symm.trans made) with rfl
      exact ⟨host.system, listed, .refl _, declared, place, rfl⟩

namespace Runs

variable {callable : Callable} {handle : CallableHandle}

/-- A call runs one callable only. -/
theorem unique {other : Callable} (first : host.Runs world handle callable) (second : host.Runs world handle other) :
    callable = other := by
  cases first with
  | own registered generated =>
      cases second with
      | own registeredToo => exact Option.some.inj (registered.symm.trans registeredToo)
      | pending waits =>
          rcases Option.some.inj (registered.symm.trans waits) with rfl
          cases generated
  | pending waits resolved found =>
      cases second with
      | own registered generated =>
          rcases Option.some.inj (registered.symm.trans waits) with rfl
          cases generated
      | pending waitsToo resolvedToo foundToo =>
          rcases Callable.placeholder.inj (Option.some.inj (waits.symm.trans waitsToo)) with rfl
          rcases Prod.mk.inj (resolved.symm.trans resolvedToo) with ⟨same, rfl⟩
          rcases Except.ok.inj same with rfl
          exact Option.some.inj (found.symm.trans foundToo)

/-- What a slot runs serves the place of the slot. -/
theorem serves {slot : MemberSlot} {type : TypeRef} {binding : TypeBinding} {table : MemberTable} {name : String}
    (wired : world.context.Wired host.system) (bound : world.context.binding? type = some binding)
    (present : binding.slot? table name = some slot) (runs : host.Runs world slot.handle callable) :
    callable.Serves host.system type (table, name) := by
  have slotWired := (wired.bindings type binding bound).slots _ (FinMap.mem_entries_of_get? present)
  cases slot with
  | bound handle =>
      rcases slotWired with ⟨known, known_registered, serves⟩
      have found : world.context.callable? handle = some known := known_registered
      cases runs with
      | own registered =>
          rcases Option.some.inj (found.symm.trans registered) with rfl
          exact serves
      | pending waits =>
          rcases Option.some.inj (found.symm.trans waits) with rfl
          have generated := serves.isGenerated
          cases generated
  | unbound handle =>
      rcases slotWired with ⟨member, waits, rfl, place⟩
      have found : world.context.callable? handle = some (.placeholder member) := waits
      cases runs with
      | own registered generated =>
          rcases Option.some.inj (found.symm.trans registered) with rfl
          cases generated
      | pending waits resolved made =>
          rcases Callable.placeholder.inj (Option.some.inj (found.symm.trans waits)) with rfl
          have serves := serves_of_resolved wired resolved made
          have same : (member.table, member.name) = (table, name) := place
          rwa [same] at serves

end Runs

theorem exec_invokeBy_of_generated {handle : CallableHandle} {callable : Callable}
    (found : Registered world.context.callables handle callable) (generated : callable.isGenerated = true)
    (runner : NativeRunner) (arguments : List ScriptValue) :
    exec (host.invokeBy runner handle arguments) world = exec (host.runMemberBy runner callable arguments) world := by
  have looked : world.context.callable? handle = some callable := found
  rw [invokeBy, invokeWithinBy, exec_bind_of_ok (exec_context world), looked]
  cases callable <;> first | rfl | exact Bool.noConfusion generated

/-- A function that is not one of the embedder works on its first argument, if it works on an instance. -/
theorem worksThrough_invokeBy {handle : CallableHandle} (generated : world.context.Generated handle)
    (arguments : List ScriptValue) (holds : (Invariant.standing start).holds world) :
    start.WorksThrough (host.Runs world handle) arguments.head?
      (fun results => ∃ callable, host.Runs world handle callable ∧ callable.Rests results) (fun _ => True)
      fun runner => exec (host.invokeBy runner handle arguments) world := by
  simp only [invokeBy, invokeWithinBy, exec_bind_of_ok (exec_context world)]
  cases found : world.context.callable? handle with
  | none => exact .throw _ holds.2
  | some callable =>
      have run (callable : Callable) (registered : world.context.callable? handle = some callable)
          (made : callable.isGenerated = true) :=
        have runs : host.Runs world handle callable := .own registered made
        (@worksThrough_runMemberBy host start world callable arguments holds).weaken
          (fun other (same : other = callable) => (same ▸ runs : host.Runs world handle other))
          (fun results resting => (⟨callable, runs, resting⟩ :
            ∃ callable, host.Runs world handle callable ∧ callable.Rests results)) fun _ => id
      cases callable with
      | placeholder member =>
          refine .after ((host.respects_standing start).resolveMember member world holds)
            fun made middle resolved holds => ?_
          simp only [exec_bind_of_ok (exec_context middle)]
          cases taken : middle.context.callable? made with
          | none => exact .throw _ holds.2
          | some callable =>
              have runs : host.Runs world handle callable := .pending found resolved taken
              exact (worksThrough_runMemberBy callable arguments holds).weaken (fun other same => same ▸ runs)
                (fun _ resting => ⟨callable, runs, resting⟩) fun _ => id
      | embedder name body => exact absurd found (generated name body)
      | _ => exact run _ found rfl

/-- What a slot of a bound type runs serves its place, and works on the first argument. -/
theorem worksThrough_slot {through : Callable → Prop} {rests : List ScriptValue → Prop} {type : TypeRef}
    {binding : TypeBinding} {table : MemberTable} {name : String} {slot : MemberSlot}
    (bound : world.context.binding? type = some binding) (present : binding.slot? table name = some slot)
    (leads : ∀ callable, callable.Serves host.system type (table, name) → through callable)
    (resting : ∀ (callable : Callable) results, callable.Serves host.system type (table, name) → callable.Rests results →
      rests results)
    (wired : world.context.Wired host.system) (arguments : List ScriptValue)
    (holds : (Invariant.standing start).holds world) :
    start.WorksThrough through arguments.head? rests (fun _ => True) fun runner =>
      exec (host.invokeBy runner slot.handle arguments) world := by
  refine (worksThrough_invokeBy (wired.generated_slot bound present) arguments holds).weaken
    (fun callable runs => leads callable (runs.serves wired bound present)) (fun results => ?_) fun _ => id
  rintro ⟨callable, runs, rested⟩
  exact resting callable results (runs.serves wired bound present) rested

/-- Indexers give an item after they worked on the instance, and nothing if they did not. -/
theorem worksThrough_readItem {type : TypeRef} {binding : TypeBinding}
    (wired : binding.Wired host.system world.context.callables type) (target key : ScriptValue)
    (holds : (Invariant.standing start).holds world) :
    start.WorksThrough host.Reads (some target) (fun _ => True) (·.isSome = true) fun runner =>
      exec (readItem (host.invokeBy runner) binding target key) world := by
  simp only [readItem]
  split
  · exact .pure trivial holds.2
  next getter given =>
    rcases wired.itemGetter getter given with ⟨properties, registered⟩
    have works : start.WorksThrough host.Reads (some target) (· = [.boolean false])
        (fun results => ∃ value, results = [.boolean true, value]) fun runner => exec (host.invokeBy runner getter [target, key]) world := by
      simp only [exec_invokeBy_of_generated registered rfl]
      exact (worksThrough_getItemBy [target, key] holds).weaken (fun callable same => .inr ⟨type, properties, same⟩)
        (fun _ => id) fun _ => id
    refine works.bind (fun _ => id) ?_ fun results middle rested _ kept => ?_
    · rintro _ ⟨value, rfl⟩
      exact ⟨some value, rfl, fun _ => rfl⟩
    · rw [rested]
      exact .pure trivial kept

/-- Indexers say so after they worked on the instance. -/
theorem worksThrough_writeItem {type : TypeRef} {binding : TypeBinding}
    (wired : binding.Wired host.system world.context.callables type) (target key item : ScriptValue)
    (holds : (Invariant.standing start).holds world) :
    start.WorksThrough host.Writes (some target) (· = false) (· = true) fun runner =>
      exec (writeItem (host.invokeBy runner) binding target key item) world := by
  simp only [writeItem]
  split
  · exact .pure rfl holds.2
  next setter given =>
    rcases wired.itemSetter setter given with ⟨properties, registered⟩
    have works : start.WorksThrough host.Writes (some target) (· = [.boolean false]) (· = [.boolean true])
        fun runner => exec (host.invokeBy runner setter [target, key, item]) world := by
      simp only [exec_invokeBy_of_generated registered rfl]
      exact (worksThrough_setItemBy [target, key, item] holds).weaken
        (fun callable same => .inr ⟨type, properties, same⟩) (fun _ => id) fun _ => id
    have first : start.WorksThrough host.Writes (some target) (· = .boolean false) (· = .boolean true)
        fun runner => exec (firstResult (host.invokeBy runner) setter [target, key, item]) world :=
      works.map _ (fun results same => by rw [same]; rfl) fun results same => by rw [same]; rfl
    exact first.map _ (fun result same => by rw [same]; rfl) fun result same => by rw [same]; rfl

theorem keptBy_writeArray_standing (value : HostValue) (type : TypeRef) (key item : ScriptValue) :
    (Invariant.standing start).KeptBy (host.writeArray value type key item) := by
  simp only [writeArray]
  split
  · refine .bind (keptBy_fits _ _) fun taken => ?_
    split
    · exact .throw _
    · refine .bind (keptBy_toHost _ _) fun converted => .bind .store fun store => ?_
      split
      · exact .bind (fun world holds => .inl holds) fun _ => .pure _
      · exact .throw _
  · exact .pure _

/-- An array that has no element at a key leaves all as it was. -/
theorem eq_of_readArray_none {value : HostValue} {type : TypeRef} {key : ScriptValue}
    (run : exec (host.readArray value type key) world = (.ok none, after)) : after = world := by
  simp only [readArray] at run
  split at run
  · rw [exec_bind_of_ok (exec_store world)] at run
    split at run
    · cases run
    · split at run
      · exact (Prod.mk.inj run).2.symm
      · split at run
        · rcases exec_bind_eq_ok run with ⟨value, middle, -, rest⟩
          cases rest
        · cases run
  · exact (Prod.mk.inj run).2.symm

theorem exists_getter_of_instanceMember? {binding : TypeBinding} {key : ScriptValue} {handle : CallableHandle}
    (found : instanceMember? binding key = some (.getter handle)) :
    ∃ name slot, binding.slot? .getters name = some slot ∧ slot.handle = handle := by
  cases key with
  | string name =>
      simp only [instanceMember?] at found
      split at found
      next => cases found
      next slot _ present =>
        rcases InstanceMember.getter.inj (Option.some.inj found) with rfl
        exact ⟨name, slot, present, rfl⟩
      next => cases found
  | _ => cases found

/-- What holds of worlds from which scripts go on. -/
def sound (host : Host) : Invariant := host.wiring.both consistency

theorem respects_sound (host : Host) : host.RespectsWrites host.sound :=
  (respects_wiring host).both (respects_consistency host)

theorem sound_of_readItem {binding : TypeBinding} {target key : ScriptValue} {item : Option ScriptValue}
    (sound : host.sound.holds world)
    (run : exec (readItem (host.invokeBy host.runner) binding target key) world = (.ok item, after)) :
    host.sound.holds after := by
  rw [invokeBy_runner] at run
  exact (keptBy_readItem (respects_sound host).invokes binding target key).holds_of_ok sound run

theorem sound_of_writeItem {binding : TypeBinding} {target key item : ScriptValue} {taken : Bool}
    (sound : host.sound.holds world)
    (run : exec (writeItem (host.invokeBy host.runner) binding target key item) world = (.ok taken, after)) :
    host.sound.holds after := by
  rw [invokeBy_runner] at run
  exact (keptBy_writeItem (respects_sound host).invokes binding target key item).holds_of_ok sound run

/-- Along the chain of types of an instance, the first type that takes a key reads it. -/
theorem worksThrough_readAlong (proxy : Proxy) (value : HostValue) (key : ScriptValue) (chain : List TypeRef)
    (wired : world.context.Wired host.system) (holds : (Invariant.standing start).holds world) :
    start.WorksThrough host.Reads (some (.proxy proxy)) (fun _ => True) (fun _ => True) fun runner =>
      exec (host.readAlong (host.invokeBy runner) proxy value key chain) world := by
  induction chain generalizing world with
  | nil => exact .pure trivial holds.2
  | cons type rest ih =>
      simp only [readAlong, exec_bind_of_ok (exec_context world)]
      cases bound : world.context.binding? type with
      | none => exact ih wired holds
      | some binding =>
          dsimp only
          split
          · exact .pure trivial holds.2
          next handle found =>
            rcases exists_getter_of_instanceMember? found with ⟨name, slot, present, rfl⟩
            have works := @worksThrough_slot host start world host.Reads (fun _ => True) type binding .getters name slot
              bound present (fun callable serves => .inl ⟨type, name, serves⟩) (fun _ _ _ _ => trivial) wired
              [.proxy proxy] holds
            exact works.map _ (fun _ _ => trivial) fun _ _ => trivial
          next =>
            have respects := host.respects_standing start
            refine .after (respects.readArray value type key world holds) fun element middle run holds => ?_
            cases element with
            | some element => exact .pure trivial holds.2
            | none =>
                rcases eq_of_readArray_none run with rfl
                refine (worksThrough_readItem (wired.bindings type binding bound) (.proxy proxy) key holds).bind
                  (fun _ => id) (fun item taken => ?_) fun item last _ same kept => ?_
                · rcases Option.isSome_iff_exists.mp taken with ⟨found, rfl⟩
                  exact ⟨found, trivial, fun _ => rfl⟩
                · cases item with
                  | some item => exact .pure trivial kept
                  | none =>
                      have sound := sound_of_readItem ⟨wired, holds.1⟩ (same host.runner)
                      exact ih sound.1 ⟨sound.2, kept⟩

/-- Only elements of arrays are written without working on the instance. -/
theorem exists_array_of_writeArray {value : HostValue} {type : TypeRef} {key item : ScriptValue}
    (run : exec (host.writeArray value type key item) world = (.ok true, after)) :
    ∃ reference, value.asObject? = some reference := by
  simp only [writeArray] at run
  split at run
  next reference _ _ array _ _ => exact ⟨reference, array⟩
  next => cases run

/-- A setter of an instance always works on it. -/
theorem not_rests_of_serves {system : TypeSystem} {type : TypeRef} {name : String} {callable : Callable}
    (serves : callable.Serves system type (.setters, name)) (results : List ScriptValue) : ¬callable.Rests results := by
  rcases serves with ⟨earlier, member, -, declared, place, rfl⟩
  rcases member with ⟨memberName, isStatic, kind, source⟩
  have table : MemberTable.ofMember kind isStatic = .setters := (Prod.mk.inj place).1
  cases source with
  | field field =>
      have onInstance : isStatic = false := by
        cases isStatic with
        | false => rfl
        | true => cases kind <;> cases table
      have setter : kind = .fieldSet := by
        rcases declared.1 with getter | setter
        · rcases getter with rfl
          cases onInstance
          cases table
        · exact setter
      simp only [Callable.ofMember, setter, if_pos, Callable.Rests]
      rw [declared.2.2.1, onInstance]
      exact Bool.false_ne_true
  | _ => exact id

/-- Along the chain of types of an instance, the first type that takes a key writes it. -/
theorem worksThrough_writeAlong (proxy : Proxy) (value : HostValue) (key item : ScriptValue) (chain : List TypeRef)
    (wired : world.context.Wired host.system) (holds : (Invariant.standing start).holds world) :
    start.WorksThrough host.Writes (some (.proxy proxy)) (fun _ => ∃ reference, value.asObject? = some reference)
      (fun _ => True) fun runner =>
        exec (host.writeAlong (host.invokeBy runner) proxy value key item chain) world := by
  induction chain generalizing world with
  | nil => exact .throw _ holds.2
  | cons type rest ih =>
      simp only [writeAlong, exec_bind_of_ok (exec_context world)]
      cases bound : world.context.binding? type with
      | none => exact ih wired holds
      | some binding =>
          dsimp only
          split
          next slot found =>
            rcases Option.bind_eq_some_iff.mp found with ⟨name, -, present⟩
            have works := @worksThrough_slot host start world host.Writes (fun _ => False) type binding .setters name slot
              bound present (fun callable serves => .inl ⟨type, name, serves⟩)
              (fun callable results serves => not_rests_of_serves serves results) wired [.proxy proxy, item] holds
            exact works.map _ (fun _ => False.elim) fun _ _ => trivial
          next =>
            refine .after (keptBy_writeArray_standing value type key item world holds) fun stored middle run holds => ?_
            cases stored with
            | true => exact .pure (exists_array_of_writeArray run) holds.2
            | false =>
                rcases eq_of_writeArray_false run with rfl
                refine (worksThrough_writeItem (wired.bindings type binding bound) (.proxy proxy) key item holds).bind
                  (fun _ => id) (fun taken isTaken => ⟨(), trivial, fun _ => by rw [isTaken]; rfl⟩)
                  fun taken last passed same kept => ?_
                rcases passed with rfl
                have sound := sound_of_writeItem ⟨wired, holds.1⟩ (same host.runner)
                exact ih sound.1 ⟨sound.2, kept⟩

/-- What is done before a chain is walked: the instance is looked up, and its type is bound. -/
theorem worksThrough_ready {through : Callable → Prop} {target : Option ScriptValue} {α : Type} {rests : α → Prop}
    {proxy : Proxy} {next : NativeRunner → HostValue → List TypeRef → Bridge ScriptError α}
    (wired : world.context.Wired host.system) (consistent : world.context.cache.Consistent)
    (continues : ∀ value chain middle, world.context.cache.resolve? proxy = some value →
      middle.context.Wired host.system → (Invariant.standing world).holds middle →
      world.WorksThrough through target rests (fun _ => True) fun runner => exec (next runner value chain) middle) :
    world.WorksThrough through target rests (fun _ => True) fun runner => exec (do
      let value ← host.liveValue proxy
      Bridge.asScript (host.ensureBound proxy.type)
      let chain := (← Bridge.context).lookupChain host.system proxy.type
      next runner value chain) world := by
  have respects := host.respects_standing world
  refine .after (keptBy_liveValue proxy world (standing_refl consistent)) fun value found run holds => ?_
  rcases resolve?_of_liveValue run with ⟨live, rfl⟩
  refine .after ((respects.ensureBound proxy.type).asScript found holds) fun _ middle bound holds => ?_
  have wiredMiddle := (((respects_wiring host).ensureBound proxy.type).asScript).holds_of_ok wired bound
  simp only [exec_bind_of_ok (exec_context middle)]
  exact continues value _ middle live wiredMiddle holds

theorem worksThrough_index (wired : world.context.Wired host.system) (consistent : world.context.cache.Consistent)
    (proxy : Proxy) (key : ScriptValue) :
    world.WorksThrough host.Reads (some (.proxy proxy)) (fun _ => True) (fun _ => True) fun runner =>
      exec (host.indexBy (host.invokeBy runner) (.proxy proxy) key) world :=
  worksThrough_ready wired consistent fun value chain _ _ => worksThrough_readAlong proxy value key chain

theorem worksThrough_assign (wired : world.context.Wired host.system) (consistent : world.context.cache.Consistent)
    (proxy : Proxy) (key item : ScriptValue) :
    world.WorksThrough host.Writes (some (.proxy proxy))
      (fun _ => ∃ value reference, world.context.cache.resolve? proxy = some value ∧ value.asObject? = some reference)
      (fun _ => True) fun runner =>
        exec (host.assignBy (host.invokeBy runner) (.proxy proxy) key item) world := by
  refine worksThrough_ready wired consistent fun value chain middle live wired holds => ?_
  refine (worksThrough_writeAlong proxy value key item chain wired holds).weaken (fun _ => id) ?_ fun _ => id
  rintro _ ⟨reference, array⟩
  exact ⟨value, reference, live, array⟩

end Host

end ScriptBridge
