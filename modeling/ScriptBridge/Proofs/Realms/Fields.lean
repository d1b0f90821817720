import ScriptBridge.Proofs.Realms.FieldEffects
import ScriptBridge.Proofs.Realms.Tables

/-!
# Fields of running realms

In every run, the slots of the dispatch tables are from the catalogs of their types, so
what a slot of a field leads to is known. A field that scripts can reach is therefore
read without fail, a write of it can be read back, and nothing else on the host changes.
-/

namespace ScriptBridge.Realm

open Bridge

variable {realm : Realm} {place : Nat} {context : Context}

/-- In every run, the slots of every context are from catalogs. -/
theorem cataloged_actAll (actions : List Action) (place : Nat) (context : Context)
    (present : (core.actAll actions).contexts[place]? = some context) :
    context.Cataloged (core.actAll actions).system :=
  @forall_contexts_actAll (fun realm context => context.Cataloged realm.system)
    (fun _ config => Context.Cataloged.fresh _ config _)
    (fun realm action _ listed => listed.change (precedes_act realm action) rfl (.refl _))
    (fun realm context operation listed =>
      @Host.cataloged_perform realm.host ⟨realm.store, context, []⟩ operation listed)
    actions place context present

/-- An operation on a context declares no types. -/
theorem system_act_perform (realm : Realm) (index : Nat) (operation : Operation) :
    (realm.act (.perform index operation)).host.system = realm.host.system := by
  cases found : realm.contexts[index]? with
  | none => simp [act, perform?, found]
  | some context =>
      rw [act_perform found]
      rfl

/--
Fields are read back as they were written. In every run, for a field that reading and writing a name come to, where
the slots that they come to are there for the field, and where the target has storage for its type: a read never
misses the member. After a write that succeeds, the next read gives what handing out the written value, converted to
the type of the field, gives; it makes the getter first if this is its first use, which fails only if the context can
take no more callables. The write changes nothing but the field of the target, and the read changes nothing.
-/
theorem fields_readBack (actions : List Action) (place : Nat) (context : Context)
    (present : (core.actAll actions).contexts[place]? = some context) (field : Field) (name : String)
    (declared : field ∈ (core.actAll actions).host.system.fields field.owner) (target source : ScriptValue)
    (begun : World)
    (ready : exec ((core.actAll actions).host.ready target) ⟨(core.actAll actions).store, context, []⟩ =
      (.ok (), begun))
    (getter setter : MemberSlot)
    (sets : begun.context.SetsField (core.actAll actions).host field name target setter)
    (gets : begun.context.GetsField (core.actAll actions).host field name source getter)
    (setterHas : field.HasSlot (core.actAll actions).host begun.context name .fieldSet setter)
    (getterHas : field.HasSlot (core.actAll actions).host begun.context name .fieldGet getter)
    (same : field.definition.isStatic = false → source = target)
    (held : begun.Holds (core.actAll actions).host.system field target) :
    let host := (core.actAll actions).host
    let start : World := ⟨(core.actAll actions).store, context, []⟩
    (∀ type member, (exec (host.index source (.string name)) start).1 ≠ .error (.memberNotFound type member)) ∧
    ∀ item after, exec (host.assign target (.string name) item) start = (.ok (), after) →
      ∃ converted, begun.context.toHost host.system item field.definition.type = .ok converted ∧
        exec (host.index source (.string name)) after =
          exec (do host.makeMember getter; Bridge.asScript (host.push converted)) after ∧
        host.Made (field.member name .fieldGet).place after (exec (host.makeMember getter) after) ∧
        start.ChangesOnly field target after ∧
        after.Untouched (exec (host.index source (.string name)) after).2 := by
  intro host start
  have consistent : start.context.cache.Consistent := consistent_cache actions present
  have wired : begun.context.Wired host.system :=
    @Host.wired_ready host start begun (wired_actAll actions place context present) _ ready
  rcases Host.untouched_ready consistent ready with ⟨tidy, untouched⟩
  have cataloged : begun.context.Cataloged host.system :=
    @Host.cataloged_ready host start begun _ (cataloged_actAll actions place context present) ready
  have getterLeads : getter.LeadsTo host begun.context field.owner _ (.fieldGetter field) :=
    getterHas.leadsTo rfl cataloged gets.slot?
  have setterLeads : setter.LeadsTo host begun.context field.owner _ (.fieldSetter field) :=
    setterHas.leadsTo rfl cataloged sets.slot?
  have alsoForSource : begun.Holds host.system field source ∧ exec (host.ready source) start = (.ok (), begun) := by
    rcases sets.inReach.eq_or gets.inReach same with rfl | ⟨id, other, rfl, rfl⟩
    · exact ⟨held, ready⟩
    · exact ⟨held, ready⟩
  rcases alsoForSource with ⟨heldToo, readyToo⟩
  rcases sets.inReach.receives wired with ⟨receiver, receives⟩
  rcases gets.inReach.receives wired with ⟨again, receivesToo⟩
  rcases held.readField? declared wired sets.inReach receives with ⟨current, stored⟩
  rcases heldToo.readField? declared wired gets.inReach receivesToo with ⟨value, storedToo⟩
  refine ⟨fun type member => ?_, fun item after run => ?_⟩
  · rcases Host.exec_index_field wired readyToo gets getterLeads receivesToo storedToo with ⟨read, made⟩
    rw [read]
    exact Host.exec_handOut_ne made value type member
  · rcases Host.exec_assign_field wired tidy ready sets setterLeads receives stored run with
      ⟨converted, written, converts, alike, writes, returned, tag⟩
    have wiredAfter : after.context.Wired host.system :=
      @Host.wired_assign host start after _ _ _ (wired_actAll actions place context present) run
    have tidyAfter := Host.consistent_assign consistent run
    have forWriting : (field.member name .fieldSet).place.1 = .setters ∨
        (field.member name .fieldSet).place.1 = .classSetters := by
      rw [Field.member, CatalogMember.place]
      cases field.definition.isStatic
      · exact .inl rfl
      · exact .inr rfl
    have getsAfter := gets.of_sameBut alike forWriting fun proxy => returned.owns tag
    rcases getsAfter.inReach.receives wiredAfter with ⟨last, reread⟩
    have storedAfter := World.readField?_of_writes receives writes returned tag reread same
    rcases Host.exec_index_field wiredAfter (Host.exec_ready_of_getsField getsAfter) getsAfter
      (alike.leadsTo getterLeads) reread storedAfter with ⟨read, made⟩
    refine ⟨converted, converts, read, made, ?_, ?_⟩
    · refine untouched.changesOnly (World.changesOnly_of_writes receives writes rfl returned) ?_
      rintro proxy value rfl live
      exact Host.resolve?_of_ready consistent ready live
    · rw [read]
      exact Host.untouched_handOut tidyAfter made converted

def health : Field := ⟨.declared 14, .named "health" .int32 (.int32 10)⟩

def creature : TypeDef := (TypeDef.ofClass "Game" "Creature").addField health.definition

def goblin : TypeDef := { TypeDef.ofClass "Game" "Goblin" with base := some (.declared 14) }

/-- A goblin is made, which has the health of a creature; members are to be made at their first use. -/
def goblinMade : List Action :=
  [.declare creature, .declare goblin, .make (.newObject (.declared 15)), .openContext Config.standard.onDemand]

/-- The goblin is handed to a script. -/
def goblinHanded : List Action := goblinMade ++ [.perform 0 (.push (.object ⟨0⟩))]

def goblinProxy : Proxy := ⟨⟨4, 0⟩, .declared 15, ⟨1⟩⟩

theorem system_goblinHanded : (core.actAll goblinHanded).host.system = (core.actAll goblinMade).host.system := by
  rw [goblinHanded, actAll_append, actAll_cons, actAll_nil, system_act_perform]

/-- The script comes to the health of the goblin through the tables of creatures, and can write it. -/
def ComesToHealth (realm : Realm) (context : Context) : Prop :=
  ((context.cache.resolve? goblinProxy).bind HostValue.asObject? = some ⟨0⟩ ∧
    (realm.store.instance? ⟨0⟩).map (fun object => object.storage.entries.map Prod.fst) = some ["health"]) ∧
  (context.isBound (.declared 15) = true ∧
    context.lookupChain realm.host.system (.declared 15) = [.declared 15, .declared 14, .object]) ∧
  ((context.binding? (.declared 15)).map (fun binding => (binding.slots.entries.isEmpty, binding.itemGetter,
      (context.settableItems binding).isEmpty)) = some (true, none, true) ∧
    (context.binding? (.declared 14)).map (fun binding => (binding.slot? .methods "health",
      binding.slot? .getters "health", binding.slot? .setters "health")) =
        some (none, some (.unbound ⟨0⟩), some (.unbound ⟨1⟩))) ∧
  (exec (realm.host.assign (.proxy goblinProxy) (.string "health") (.integer 3))
    ⟨realm.store, context, []⟩).1.isOk = true

instance (realm : Realm) (context : Context) : Decidable (ComesToHealth realm context) :=
  inferInstanceAs (Decidable ((_ ∧ _) ∧ (_ ∧ _) ∧ (_ ∧ _) ∧ _))

theorem newInstance_goblin :
    (core.actAll goblinMade).host.system.newInstance (.declared 15) =
      ⟨.declared 15, .ofList [("health", .int32 10)], []⟩ :=
  rfl

/-- A goblin has storage for its health. -/
theorem ComesToHealth.holds {context : Context} (comes : ComesToHealth (core.actAll goblinHanded) context) :
    World.Holds (core.actAll goblinHanded).host.system health (.proxy goblinProxy)
      ⟨(core.actAll goblinHanded).store, context, []⟩ := by
  rcases comes with ⟨⟨stands, stored⟩, -⟩
  rcases Option.bind_eq_some_iff.mp stands with ⟨value, resolved, isObject⟩
  rcases Option.map_eq_some_iff.mp stored with ⟨object, present, keys⟩
  have storage : object.storage =
      ((core.actAll goblinHanded).host.system.newInstance (.declared 15)).storage.insertAll object.storage.entries := by
    rw [system_goblinHanded, newInstance_goblin]
    rcases object with ⟨type, ⟨entries⟩, elements⟩
    match entries, keys with
    | [(_, _)], rfl => rfl
  generalize (core.actAll goblinHanded).store = store at present ⊢
  generalize (core.actAll goblinHanded).host.system = system at storage ⊢
  cases value with
  | object reference =>
      obtain rfl := Option.some.inj isObject
      exact ⟨_, object, _, resolved, present, storage⟩
  | _ => cases isObject

/-- A script comes to the health of a goblin through slots of creatures; the name is nobody else's. -/
theorem ComesToHealth.accesses {context : Context} (comes : ComesToHealth realm context) :
    context.SetsField realm.host health "health" (.proxy goblinProxy) (.unbound ⟨1⟩) ∧
      context.GetsField realm.host health "health" (.proxy goblinProxy) (.unbound ⟨0⟩) := by
  rcases comes with ⟨⟨stands, -⟩, ⟨isBound, chain⟩, ⟨nearer, owner⟩, -⟩
  rcases Option.map_eq_some_iff.mp owner with ⟨binding, bound, slots⟩
  rcases Prod.mk.inj slots with ⟨noMethod, both⟩
  rcases Prod.mk.inj both with ⟨getter, setter⟩
  have along : context.lookupChain realm.host.system goblinProxy.type = [.declared 15] ++ health.owner :: [.object] :=
    chain
  have live : context.cache.owns goblinProxy = true := by
    rcases Option.bind_eq_some_iff.mp stands with ⟨value, resolved, -⟩
    rw [IdentityCache.owns, resolved]
    rfl
  have passed {type : TypeRef} {other : TypeBinding} (listed : type ∈ [TypeRef.declared 15])
      (found : context.binding? type = some other) :
      type = .declared 15 ∧ (∀ table, other.slot? table "health" = none) ∧ other.itemGetter = none ∧
        context.settableItems other = [] := by
    obtain rfl := List.mem_singleton.mp listed
    rw [found, Option.map_some, Option.some.injEq, Prod.mk.injEq, Prod.mk.injEq, List.isEmpty_iff, List.isEmpty_iff]
      at nearer
    refine ⟨rfl, fun table => ?_, nearer.2⟩
    rcases other with ⟨_, _, ⟨entries⟩⟩
    obtain rfl : entries = [] := nearer.1
    rfl
  constructor
  · refine .onInstance rfl live isBound along (fun type listed other found value => ?_) bound setter
    rcases passed listed found with ⟨rfl, none, -, noIndexers⟩
    refine ⟨fun name same => ?_, fun _ isArray => (by cases isArray), fun property listed => ?_⟩
    · obtain rfl := ScriptValue.string.inj same
      exact none _
    · rw [noIndexers] at listed
      cases listed
  · refine .onInstance rfl live isBound along (fun type listed other found => ?_) bound noMethod getter
    rcases passed listed found with ⟨rfl, none, noIndexer, -⟩
    refine ⟨none _, none _, fun isArray => (by cases isArray), fun getter given => ?_⟩
    rw [noIndexer] at given
    cases given

/-- Creatures have no other field and no property by the name of health. -/
theorem seenAs_health : health.SeenAs (core.actAll goblinHanded).host.system "health" where
  declared := by
    rw [system_goblinHanded]
    exact List.mem_singleton_self _
  varies := rfl
  alone other declared _ _ := by
    rw [system_goblinHanded] at declared
    exact List.mem_singleton.mp declared
  noProperty method declared := by
    rw [system_goblinHanded] at declared
    exact absurd declared List.not_mem_nil

/-- The script writes the health of a goblin, and then reads what it has written. -/
theorem fields_readBack_goblinHanded :
    let host := (core.actAll goblinHanded).host
    ∃ context, (core.actAll goblinHanded).contexts[0]? = some context ∧
      let start : World := ⟨(core.actAll goblinHanded).store, context, []⟩
      ∃ after converted,
        exec (host.assign (.proxy goblinProxy) (.string "health") (.integer 3)) start = (.ok (), after) ∧
        context.toHost host.system (.integer 3) health.definition.type = .ok converted ∧
        exec (host.index (.proxy goblinProxy) (.string "health")) after =
          exec (do host.makeMember (.unbound ⟨0⟩); Bridge.asScript (host.push converted)) after ∧
        start.ChangesOnly health (.proxy goblinProxy) after := by
  intro host
  have reached : (core.actAll goblinHanded).contexts[0]?.any (ComesToHealth (core.actAll goblinHanded)) := by
    decide +kernel
  rcases Option.any_eq_true _ _ |>.mp reached with ⟨context, present, checked⟩
  have comes := of_decide_eq_true checked
  have writes := comes.2.2.2
  rcases comes.accesses with ⟨sets, gets⟩
  have readBack := (fields_readBack goblinHanded 0 context present health "health" seenAs_health.mem_fields
    (.proxy goblinProxy) (.proxy goblinProxy) ⟨(core.actAll goblinHanded).store, context, []⟩
    (Host.exec_ready_of_getsField gets) (.unbound ⟨0⟩) (.unbound ⟨1⟩) sets gets (.alone seenAs_health)
    (.alone seenAs_health) (fun _ => rfl) comes.holds).2 (.integer 3)
  rcases exists_ok_of_isOk writes with ⟨_, run⟩
  rcases readBack _ run with ⟨converted, converts, read, -, changes, -⟩
  exact ⟨context, present, _, converted, run, converts, read, changes⟩

/-!
## Field writes that are kept, and those that are lost

The setter of an instance field takes every live proxy whose type inherits the field. Shared
instances and copies have slots, and what is written to them is there afterwards. The values
of enumerations, types and delegates have none: a write to them is accepted and changes nothing.
-/

/--
A setter writes to instances only. In every run, for a live proxy and an instance field whose setter a write of the
name comes to, a write that succeeds leaves a value behind the proxy whose field reads as what was written, converted
to the type of the field, exactly if the value is an instance. The value of an enumeration, a type or a delegate has no
slots: the write is accepted, the value and the host stay as they were, and the field of the value does not read.
-/
theorem fieldWrites_keptByInstances (actions : List Action) (place : Nat) (context : Context)
    (present : (core.actAll actions).contexts[place]? = some context) (field : Field) (name : String) (proxy : Proxy)
    (begun : World)
    (ready : exec ((core.actAll actions).host.ready (.proxy proxy)) ⟨(core.actAll actions).store, context, []⟩ =
      (.ok (), begun))
    (setter : MemberSlot) (sets : begun.context.SetsField (core.actAll actions).host field name (.proxy proxy) setter)
    (setterHas : field.HasSlot (core.actAll actions).host begun.context name .fieldSet setter)
    (value : HostValue) (live : begun.context.cache.resolve? proxy = some value) (item : ScriptValue) (after : World)
    (run : exec ((core.actAll actions).host.assign (.proxy proxy) (.string name) item)
      ⟨(core.actAll actions).store, context, []⟩ = (.ok (), after)) :
    ∃ converted now, begun.context.toHost (core.actAll actions).host.system item field.definition.type = .ok converted ∧
      after.context.cache.resolve? proxy = some now ∧
      (after.store.readField? field (some now) = some converted ↔ (begun.store.instanceOf? value).isSome) ∧
      (begun.store.instanceOf? value = none →
        now = value ∧ after.store = begun.store ∧ after.store.readField? field (some now) = none) := by
  let host := (core.actAll actions).host
  let start : World := ⟨(core.actAll actions).store, context, []⟩
  have consistent : start.context.cache.Consistent := consistent_cache actions present
  have wired : begun.context.Wired host.system :=
    @Host.wired_ready host start begun (wired_actAll actions place context present) _ ready
  have cataloged : begun.context.Cataloged host.system :=
    @Host.cataloged_ready host start begun _ (cataloged_actAll actions place context present) ready
  rcases Host.untouched_ready consistent ready with ⟨tidy, -⟩
  have leads := setterHas.leadsTo rfl cataloged sets.slot?
  rcases Host.exec_assign_proxy wired tidy ready sets leads live run with
    ⟨converted, now, converts, stands, ⟨isInstance, kept⟩ | ⟨noInstance, same, unchanged, lost⟩⟩
  · have kind := Option.isSome_iff_ne_none.mpr isInstance
    exact ⟨converted, now, converts, stands, ⟨fun _ => kind, fun _ => kept⟩,
      fun noInstance => absurd noInstance isInstance⟩
  · refine ⟨converted, now, converts, stands, ?_, fun _ => ⟨same, unchanged, lost⟩⟩
    rw [lost, noInstance]
    exact ⟨nofun, nofun⟩

def rank : Field := ⟨.declared 14, .named "Rank" .int32 (.int32 0)⟩

def suit : TypeDef := (TypeDef.ofEnumeration "Game" "Suit" [("Red", 0)]).addField rank.definition

def suitMade : List Action := [.declare suit, .openContext Config.standard]

/-- A suit is handed to a script. -/
def suitHanded : List Action := suitMade ++ [.perform 0 (.push (.enumeration (.declared 14) 0))]

def suitProxy : Proxy := ⟨⟨5, 0⟩, .declared 14, ⟨1⟩⟩

/-- A script comes to the rank of the suit through the tables of suits, and the write is accepted. -/
def ComesToRank (realm : Realm) (context : Context) : Prop :=
  (context.cache.resolve? suitProxy).any (fun value => (realm.store.instanceOf? value).isNone) = true ∧
  context.isBound (.declared 14) = true ∧
  context.lookupChain realm.host.system (.declared 14) = [.declared 14, .enumeration, .valueType, .object] ∧
  (context.binding? (.declared 14)).bind (·.slot? .setters "Rank") = some (.bound ⟨1⟩) ∧
  (exec (realm.host.assign (.proxy suitProxy) (.string "Rank") (.integer 5)) ⟨realm.store, context, []⟩).1.isOk = true

instance (realm : Realm) (context : Context) : Decidable (ComesToRank realm context) :=
  inferInstanceAs (Decidable (_ ∧ _ ∧ _ ∧ _ ∧ _))

theorem comesToRank_suitHanded :
    (core.actAll suitHanded).contexts[0]?.any (ComesToRank (core.actAll suitHanded)) := by
  decide +kernel

theorem ComesToRank.sets {realm : Realm} {context : Context} (comes : ComesToRank realm context) :
    context.SetsField realm.host rank "Rank" (.proxy suitProxy) (.bound ⟨1⟩) := by
  rcases comes with ⟨stands, isBound, chain, slot, -⟩
  rcases Option.bind_eq_some_iff.mp slot with ⟨binding, bound, found⟩
  have live : context.cache.owns suitProxy = true := by
    rcases (Option.any_eq_true _ _).mp stands with ⟨value, resolved, -⟩
    rw [IdentityCache.owns, resolved]
    rfl
  have along : context.lookupChain realm.host.system suitProxy.type =
      [] ++ rank.owner :: [.enumeration, .valueType, .object] := chain
  exact .onInstance rfl live isBound along (fun type listed => absurd listed List.not_mem_nil) bound found

theorem system_suitHanded : (core.actAll suitHanded).host.system = (core.actAll suitMade).host.system := by
  rw [suitHanded, actAll_append, actAll_cons, actAll_nil, system_act_perform]

/-- Suits have no other field and no property by the name of the rank. -/
theorem seenAs_rank : rank.SeenAs (core.actAll suitHanded).host.system "Rank" where
  declared := by
    rw [system_suitHanded]
    exact List.mem_singleton_self _
  varies := rfl
  alone other declared _ _ := by
    rw [system_suitHanded] at declared
    exact List.mem_singleton.mp declared
  noProperty method declared := by
    rw [system_suitHanded] at declared
    exact absurd declared List.not_mem_nil

/-- The write of a rank is accepted, and the suit and the host are as they were. -/
theorem fieldWrites_keptByInstances_suitHanded :
    let host := (core.actAll suitHanded).host
    ∃ context value, (core.actAll suitHanded).contexts[0]? = some context ∧
      context.cache.resolve? suitProxy = some value ∧
      ∃ after, exec (host.assign (.proxy suitProxy) (.string "Rank") (.integer 5))
          ⟨(core.actAll suitHanded).store, context, []⟩ = (.ok (), after) ∧
        after.context.cache.resolve? suitProxy = some value ∧ after.store = (core.actAll suitHanded).store ∧
        after.store.readField? rank (some value) = none := by
  intro host
  rcases (Option.any_eq_true _ _).mp comesToRank_suitHanded with ⟨context, present, checked⟩
  have comes := of_decide_eq_true checked
  have sets := comes.sets
  rcases comes with ⟨stands, isBound, -, -, writes⟩
  rcases (Option.any_eq_true _ _).mp stands with ⟨value, live, noInstance⟩
  have noSlots : (core.actAll suitHanded).store.instanceOf? value = none := Option.isNone_iff_eq_none.mp noInstance
  have ready : exec (host.ready (.proxy suitProxy)) ⟨(core.actAll suitHanded).store, context, []⟩ =
      (.ok (), ⟨(core.actAll suitHanded).store, context, []⟩) :=
    Host.exec_ready_of_live (by rw [IdentityCache.owns, live]; rfl) isBound
  rcases exists_ok_of_isOk writes with ⟨_, run⟩
  rcases fieldWrites_keptByInstances suitHanded 0 context present rank "Rank" suitProxy _ ready (.bound ⟨1⟩)
    sets (.alone seenAs_rank) value live (.integer 5) _ run with ⟨_, now, -, resolved, -, lost⟩
  dsimp only at lost
  rcases lost noSlots with ⟨same, unchanged, noField⟩
  rw [same] at resolved noField
  exact ⟨context, value, present, live, _, run, resolved, unchanged, noField⟩

/-- A write to the rank of a suit is accepted, and nothing of it is left. -/
theorem not_forall_fieldWrites_kept :
    ¬∀ (actions : List Action) (place : Nat) (context : Context),
      (core.actAll actions).contexts[place]? = some context →
      ∀ (field : Field) (name : String) (proxy : Proxy) (begun : World),
      exec ((core.actAll actions).host.ready (.proxy proxy)) ⟨(core.actAll actions).store, context, []⟩ =
        (.ok (), begun) →
      ∀ setter, begun.context.SetsField (core.actAll actions).host field name (.proxy proxy) setter →
      field.HasSlot (core.actAll actions).host begun.context name .fieldSet setter →
      ∀ item after, exec ((core.actAll actions).host.assign (.proxy proxy) (.string name) item)
        ⟨(core.actAll actions).store, context, []⟩ = (.ok (), after) →
      ∃ converted now,
        begun.context.toHost (core.actAll actions).host.system item field.definition.type = .ok converted ∧
        after.context.cache.resolve? proxy = some now ∧
        after.store.readField? field (some now) = some converted := by
  intro claim
  have reached : (core.actAll suitHanded).contexts[0]?.any fun context =>
      let written := exec ((core.actAll suitHanded).host.assign (.proxy suitProxy) (.string "Rank") (.integer 5))
        ⟨(core.actAll suitHanded).store, context, []⟩
      decide (ComesToRank (core.actAll suitHanded) context) &&
        (written.2.context.cache.resolve? suitProxy).all fun now =>
          (written.2.store.readField? rank (some now)).isNone := by
    decide +kernel
  rcases (Option.any_eq_true _ _).mp reached with ⟨context, present, checked⟩
  rcases Bool.and_eq_true_iff.mp checked with ⟨comes, lost⟩
  have comes : ComesToRank (core.actAll suitHanded) context := of_decide_eq_true comes
  have sets := comes.sets
  rcases comes with ⟨stands, isBound, -, -, writes⟩
  rcases (Option.any_eq_true _ _).mp stands with ⟨value, live, -⟩
  rcases exists_ok_of_isOk writes with ⟨_, run⟩
  rcases claim suitHanded 0 context present rank "Rank" suitProxy _
    (Host.exec_ready_of_live (by rw [IdentityCache.owns, live]; rfl) isBound) _ sets (.alone seenAs_rank)
    (.integer 5) _ run with ⟨converted, now, -, resolved, kept⟩
  rw [resolved, Option.all_some, kept] at lost
  cases lost

end ScriptBridge.Realm
