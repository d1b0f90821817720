import Mathlib.Data.List.Basic
import ScriptBridge.Proofs.Realms.Assignability
import ScriptBridge.Proofs.Realms.Lookup
import ScriptBridge.Proofs.Steps.Dropping

/-!
# Lookups after a type was dropped

Lookups pass over a type that was dropped. Only names change their meaning that the type
was the first of a chain to offer: for these it is up to the next type that offers them.
-/

namespace ScriptBridge

open Bridge

namespace Context

variable {host : Host} {type base : TypeRef}

theorem isBound_without (context : Context) (different : type ≠ base) :
    (context.without base).isBound type = context.isBound type := by
  rw [isBound, isBound, binding?_without, if_neg different]

theorem lookupChain_without (context : Context) (system : TypeSystem) (different : type ≠ base) :
    (context.without base).lookupChain system type = context.lookupChain system type := by
  rw [lookupChain, lookupChain, binding?_without, if_neg different]

theorem Wired.without {system : TypeSystem} {context : Context} (wired : context.Wired system) (type : TypeRef) :
    (context.without type).Wired system := by
  cases bound : context.isBound type with
  | true =>
      rw [Context.without, if_pos bound]
      exact wired.unbind type
  | false =>
      rw [without_of_not_isBound bound]
      exact wired

theorem any_binding?_without (context : Context) (type base : TypeRef) (offers : TypeBinding → Bool) :
    ((context.without base).binding? type).any offers =
      (decide (type ≠ base) && (context.binding? type).any offers) := by
  rw [binding?_without]
  split
  next same => simp [same]
  next different => rw [decide_eq_true different, Bool.true_and]

theorem reads_without (context : Context) (value : HostValue) (name : String) (type base : TypeRef) :
    (context.without base).reads host value name type = (decide (type ≠ base) && context.reads host value name type) :=
  any_binding?_without context type base _

theorem writes_without (context : Context) (name : String) (type base : TypeRef) :
    (context.without base).writes host name type = (decide (type ≠ base) && context.writes host name type) :=
  any_binding?_without context type base _

end Context

namespace Host

variable {host : Host} {world : World} {proxy : Proxy} {value : HostValue} {type base : TypeRef} {name : String}

/-- A slot of a type leads to no other type. -/
theorem accord_invoke_slot {place : MemberTable × String} {slot : MemberSlot}
    (wired : slot.Wired host.system world.context.callables type place) (different : type ≠ base)
    (consistent : world.context.cache.Consistent) (arguments : List ScriptValue) :
    Accord (ResultsAlike world.context.cache) (exec (host.invoke slot.handle arguments) world)
      (exec (host.invoke slot.handle arguments) (world.without base)) := by
  cases slot with
  | bound handle =>
      rcases wired with ⟨callable, registered, serves⟩
      exact accord_invoke registered (.inl serves.isGenerated) arguments consistent
  | unbound handle =>
      rcases wired with ⟨member, registered, rfl, -⟩
      exact accord_invoke registered (.inr ⟨member, rfl, different⟩) arguments consistent

/-- What the results of an indexer say about an item: that there is one, or nil. -/
def itemShown : List ScriptValue → ScriptValue
  | .boolean true :: item :: _ => item
  | _ => .nil

theorem itemShown_of_ne {first : ScriptValue} (different : first ≠ .boolean true) (rest : List ScriptValue) :
    itemShown (first :: rest) = .nil := by
  unfold itemShown
  split
  next same => exact absurd (List.cons.inj same).1 different
  next => rfl

theorem alike_itemShown {start left right : IdentityCache} {results others : List ScriptValue}
    (alike : ResultsAlike start left right results others) :
    (itemShown results).Alike start left right (itemShown others) := by
  cases alike with
  | nil => exact .same rfl
  | @cons first other rest otherRest head tail =>
      have accepted := @ScriptValue.Alike.eq_iff_of_noProxy _ _ _ _ _ (.boolean true) head rfl
      by_cases same : first = .boolean true
      · rw [same, accepted.mpr same]
        cases tail with
        | nil => exact .same rfl
        | cons item => exact item
      · rw [itemShown_of_ne same, itemShown_of_ne fun otherSame => same (accepted.mp otherSame)]
        exact .same rfl

theorem readItem_eq {invoke : Invoker} {binding : TypeBinding} {getter : CallableHandle}
    (given : binding.itemGetter = some getter) (target key : ScriptValue) :
    (do match ← readItem invoke binding target key with
      | some found => return found
      | none => return .nil : Bridge ScriptError ScriptValue) = itemShown <$> invoke getter [target, key] := by
  simp only [readItem, given, bind_assoc, ← bind_pure_comp]
  refine congrArg _ (funext fun results => ?_)
  unfold itemShown
  split <;> simp

/-- What an array type reads by a name is up to the host. -/
theorem exists_exec_readArray (host : Host) (read : HostValue) (type : TypeRef) (name : String) (store : HostStore) :
    ∃ found : Option ScriptValue, (∀ length ∈ found, length.asProxy? = none) ∧ ∀ world : World, world.store = store →
      exec (host.readArray read type (.string name)) world = (.ok found, world) := by
  cases isLength : type.isArray && read.asObject?.isSome && name == "Length" with
  | false =>
      exact ⟨none, fun _ impossible => absurd impossible (Option.not_mem_none _),
        fun _ _ => exec_readArray_of_name isLength⟩
  | true =>
      simp only [Bool.and_eq_true, beq_iff_eq] at isLength
      rcases isLength with ⟨⟨isArray, isObject⟩, rfl⟩
      rcases @exec_readArray_length host _ _ isArray isObject store with ⟨length, gives⟩
      exact ⟨some (.integer length), fun found same => Option.some.inj same ▸ rfl, gives⟩

/-- Whatever type decides on a read, it reads the same where another type was dropped. -/
theorem accord_readFrom (wired : world.context.Wired host.system) (consistent : world.context.cache.Consistent)
    {decides : Option TypeRef} (different : decides ≠ some base) :
    Accord (ScriptValue.Alike world.context.cache) (exec (host.readFrom proxy value name decides) world)
      (exec (host.readFrom proxy value name decides) (world.without base)) := by
  have nothing : Accord (ScriptValue.Alike world.context.cache)
      (exec (pure .nil : Bridge ScriptError ScriptValue) world)
      (exec (pure .nil : Bridge ScriptError ScriptValue) (world.without base)) :=
    fun _ _ => ⟨rfl, .ok (.same rfl)⟩
  cases decides with
  | none => exact nothing
  | some type =>
      have apart : type ≠ base := fun same => different (congrArg some same)
      simp only [readFrom, Option.toList_some, readAlong]
      rw [exec_bind_of_ok (exec_context world), exec_bind_of_ok (exec_context (world.without base)),
        show (world.without base).context = world.context.without base from rfl, Context.binding?_without, if_neg apart]
      cases bound : world.context.binding? type with
      | none => exact nothing
      | some binding =>
          have slots := (wired.bindings type binding bound).slots
          -- In the order of a read: a method, a getter, the length of an array, an indexer.
          cases method : binding.slot? .methods name with
          | some slot =>
              simp only [instanceMember?, method]
              exact fun _ _ => ⟨rfl, .ok (.same rfl)⟩
          | none =>
              cases getter : binding.slot? .getters name with
              | some slot =>
                  simp only [instanceMember?, method, getter]
                  have leads := slots _ (FinMap.mem_entries_of_get? getter)
                  refine (accord_invoke_slot leads apart consistent [.proxy proxy]).map fun _ _ _ _ alike => ?_
                  cases alike with
                  | nil => exact .same rfl
                  | cons first => exact first
              | none =>
                  simp only [instanceMember?, method, getter]
                  rcases host.exists_exec_readArray value type name world.store with ⟨found, noProxy, reads⟩
                  rw [exec_bind_of_ok (reads world rfl), exec_bind_of_ok (reads (world.without base) rfl)]
                  cases found with
                  | some length => exact fun _ _ => ⟨rfl, .ok (.same (noProxy length rfl))⟩
                  | none =>
                      cases given : binding.itemGetter with
                      | none =>
                          simp only [readItem, given]
                          exact nothing
                      | some indexer =>
                          rcases (wired.bindings type binding bound).itemGetter indexer given with ⟨_, registered⟩
                          have called : Accord (ResultsAlike world.context.cache)
                              (exec (host.invoke indexer [.proxy proxy, .string name]) world)
                              (exec (host.invoke indexer [.proxy proxy, .string name]) (world.without base)) :=
                            accord_invoke registered (.inl rfl) _ consistent
                          have shown := called.map fun _ _ _ _ => alike_itemShown
                          rw [← readItem_eq given] at shown
                          exact shown

/-- Whatever type decides on a write, the write has the same outcome where another type was dropped. -/
theorem accord_writeTo (wired : world.context.Wired host.system) (consistent : world.context.cache.Consistent)
    {decides : Option TypeRef} (different : decides ≠ some base) (item : ScriptValue) :
    Accord (fun _ _ => Eq) (exec (host.writeTo proxy value name item decides) world)
      (exec (host.writeTo proxy value name item decides) (world.without base)) := by
  have refused : Accord (fun _ _ => Eq)
      (exec (throw (host.noSuchField proxy.type (.string name)) : Bridge ScriptError Unit) world)
      (exec (throw (host.noSuchField proxy.type (.string name)) : Bridge ScriptError Unit) (world.without base)) :=
    fun _ _ => ⟨rfl, .error _⟩
  cases decides with
  | none => exact refused
  | some type =>
      have apart : type ≠ base := fun same => different (congrArg some same)
      simp only [writeTo, Option.toList_some, writeAlong]
      rw [exec_bind_of_ok (exec_context world), exec_bind_of_ok (exec_context (world.without base)),
        show (world.without base).context = world.context.without base from rfl, Context.binding?_without, if_neg apart]
      cases bound : world.context.binding? type with
      | none => exact refused
      | some binding =>
          have slots := (wired.bindings type binding bound).slots
          simp only [ScriptValue.asString?, Option.bind_some]
          cases setter : binding.slot? .setters name with
          | some slot =>
              have leads := slots _ (FinMap.mem_entries_of_get? setter)
              exact (accord_invoke_slot leads apart consistent [.proxy proxy, item]).map fun _ _ _ _ _ => rfl
          | none =>
              dsimp only
              rw [exec_bind_of_ok (exec_writeArray_of_name ..), exec_bind_of_ok (exec_writeArray_of_name ..)]
              simp only [Bool.false_eq_true, if_false]
              cases given : binding.itemSetter with
              | none =>
                  simp only [writeItem, given]
                  exact refused
              | some indexer =>
                  rcases (wired.bindings type binding bound).itemSetter indexer given with ⟨_, registered⟩
                  have called : Accord (ResultsAlike world.context.cache)
                      (exec (host.invoke indexer [.proxy proxy, .string name, item]) world)
                      (exec (host.invoke indexer [.proxy proxy, .string name, item]) (world.without base)) :=
                    accord_invoke registered (.inl rfl) _ consistent
                  simp only [writeItem, given, firstResult, bind_assoc, pure_bind]
                  refine called.bind fun results others last otherLast alike store => ?_
                  have taken : (results.headD .nil = .boolean true) = (others.headD .nil = .boolean true) := by
                    cases alike with
                    | nil => rfl
                    | cons first => exact propext (first.eq_iff_of_noProxy rfl).symm
                  simp only [taken]
                  split
                  · exact fun _ _ => ⟨store, .ok rfl⟩
                  · exact fun _ _ => ⟨store, .error _⟩

end Host

theorem TypeSystem.ne_of_mem_ancestors {system : TypeSystem} {type base : TypeRef}
    (above : base ∈ system.ancestors type) : type ≠ base := by
  rintro rfl
  rcases mem_ancestors_iff.mp above with ⟨parent, known, member⟩
  have lower := rank_lt_of_base? known
  rcases eq_or_rank_lt_of_mem_lineage member with rfl | below
  · exact Nat.lt_irrefl _ lower
  · exact Nat.lt_asymm lower below

variable {α : Type}

theorem find?_filter_ne {base : TypeRef} {offers : TypeRef → Bool} {chain : List TypeRef}
    (different : chain.find? offers ≠ some base) :
    (chain.filter (· ≠ base)).find? offers = chain.find? offers := by
  induction chain with
  | nil => rfl
  | cons type rest ih =>
      by_cases offered : offers type = true
      · rw [List.find?_cons_of_pos offered] at different ⊢
        have apart : type ≠ base := fun same => different (congrArg some same)
        rw [List.filter_cons, if_pos (decide_eq_true apart), List.find?_cons_of_pos offered]
      · rw [List.find?_cons_of_neg offered] at different ⊢
        rw [List.filter_cons]
        split
        · rw [List.find?_cons_of_neg offered, ih different]
        · exact ih different

/--
What decides on an access along a chain of types, while one of its types is bound and after it was dropped: the first
type that offers what is accessed, of those that are left. Where that is the same type the access has the same outcome,
and without any such type it misses.
-/
structure NearestDecides (related : IdentityCache → IdentityCache → α → α → Prop) (chain : List TypeRef)
    (offers : TypeRef → Bool) (base : TypeRef) (access : Bridge ScriptError α)
    (decidedBy : Option TypeRef → Bridge ScriptError α) (missed : Except ScriptError α) (world dropped : World) :
    Prop where
  nearest : exec access world = exec (decidedBy (chain.find? offers)) world
  next : Accord related (exec (decidedBy ((chain.filter (· ≠ base)).find? offers)) world) (exec access dropped)
  unchanged : chain.find? offers ≠ some base → Accord related (exec access world) (exec access dropped)
  missing : (chain.filter (· ≠ base)).find? offers = none → exec access dropped = (missed, dropped)

theorem NearestDecides.of_accord {related : IdentityCache → IdentityCache → α → α → Prop} {chain : List TypeRef}
    {offers : TypeRef → Bool} {base : TypeRef} {access : Bridge ScriptError α}
    {decidedBy : Option TypeRef → Bridge ScriptError α} {missed : Except ScriptError α} {world dropped : World}
    (nearest : exec access world = exec (decidedBy (chain.find? offers)) world)
    (later : exec access dropped =
      exec (decidedBy (chain.find? fun type => decide (type ≠ base) && offers type)) dropped)
    (accord : ∀ decides, decides ≠ some base →
      Accord related (exec (decidedBy decides) world) (exec (decidedBy decides) dropped))
    (missing : exec (decidedBy none) dropped = (missed, dropped)) :
    NearestDecides related chain offers base access decidedBy missed world dropped := by
  have passing : (chain.find? fun type => decide (type ≠ base) && offers type) =
      (chain.filter (· ≠ base)).find? offers := by
    rw [List.find?_filter]
    congr 1
    funext type
    simp
  rw [passing] at later
  have next : Accord related (exec (decidedBy ((chain.filter (· ≠ base)).find? offers)) world) (exec access dropped) := by
    rw [later]
    refine accord _ fun found => ?_
    have left := (List.mem_filter.mp (List.mem_of_find?_eq_some found)).2
    exact of_decide_eq_true left rfl
  refine ⟨nearest, next, fun different => ?_, fun none => ?_⟩
  · rw [nearest, ← find?_filter_ne different]
    exact next
  · rw [later, none, missing]

namespace Realm

/--
The nearest bound type decides a member lookup. In every run, for a live proxy of a type that is bound, a proper
ancestor of that type and a name: the first type of the chain that offers the name decides on reads of it, and after
the ancestor was dropped the next one does, without which the name reads as nil. So a read changes its outcome only if
the ancestor was the first type to offer the name. The same holds of writes, which are refused if no type takes them.
-/
theorem nearestOffer_decides (actions : List Action) (place : Nat) (context : Context)
    (present : (core.actAll actions).contexts[place]? = some context) (proxy : Proxy) (value : HostValue)
    (live : context.cache.resolve? proxy = some value) (bound : context.isBound proxy.type = true) (base : TypeRef)
    (above : base ∈ (core.actAll actions).system.ancestors proxy.type) (name : String) (item : ScriptValue) :
    let host := (core.actAll actions).host
    let world : World := ⟨(core.actAll actions).store, context, []⟩
    let dropped := (exec (Host.unbind base : Bridge BindError Bool) world).2
    let chain := context.lookupChain host.system proxy.type
    NearestDecides (ScriptValue.Alike context.cache) chain (context.reads host value name) base
        (host.index (.proxy proxy) (.string name)) (host.readFrom proxy value name) (.ok .nil) world dropped ∧
      NearestDecides (fun _ _ => Eq) chain (context.writes host name) base
        (host.assign (.proxy proxy) (.string name) item) (host.writeTo proxy value name item)
        (.error (host.noSuchField proxy.type (.string name))) world dropped := by
  intro host world dropped chain
  have wired : world.context.Wired host.system := wired_actAll actions place context present
  have consistent : world.context.cache.Consistent := consistent_cache actions present
  have apart : proxy.type ≠ base := TypeSystem.ne_of_mem_ancestors above
  have away : dropped = world.without base := congrArg Prod.snd (Host.exec_unbind world base)
  rw [away]
  have wiredWithout : (world.without base).context.Wired host.system := wired.without base
  have boundWithout : (world.without base).context.isBound proxy.type = true :=
    (context.isBound_without apart).trans bound
  have chainWithout : (world.without base).context.lookupChain host.system proxy.type = chain :=
    context.lookupChain_without host.system apart
  constructor
  · refine .of_accord (Host.exec_index_eq_first wired live bound) ?_
      (fun decides different => Host.accord_readFrom wired consistent different) rfl
    rw [Host.exec_index_eq_first wiredWithout live boundWithout, chainWithout,
      show (world.without base).context.reads host value name = _ from
        funext fun type => context.reads_without value name type base]
  · refine .of_accord (Host.exec_assign_eq_first wired live bound item) ?_
      (fun decides different => Host.accord_writeTo wired consistent different item) rfl
    rw [Host.exec_assign_eq_first wiredWithout live boundWithout item, chainWithout,
      show (world.without base).context.writes host name = _ from
        funext fun type => context.writes_without name type base]

def animal : TypeDef :=
  (TypeDef.ofClass "Game" "Animal").addProperty "Sound" .string false .visible [] (some (.native 0)) none

/-- A class of animals with a sound of its own. -/
def dog : TypeDef :=
  { (TypeDef.ofClass "Game" "Dog").addProperty "Sound" .string false .visible [] (some (.native 1)) none with
    base := some (.declared 14) }

def puppy : TypeDef := { TypeDef.ofClass "Game" "Puppy" with base := some (.declared 15) }

/-- Animals growl, dogs bark, and a puppy is handed to a script. -/
def puppyHanded : List Action :=
  [ .declare animal, .declare dog, .declare puppy,
    .addNative fun _ invocation => pure (invocation.complete (.string "growl")),
    .addNative fun _ invocation => pure (invocation.complete (.string "bark")),
    .make (.newObject (.declared 16)), .openContext .standard, .perform 0 (.push (.object ⟨0⟩)) ]

def puppyProxy : Proxy := ⟨⟨5, 0⟩, .declared 16, ⟨1⟩⟩

/-- What a script hears from the puppy in a context, and once its dogs were dropped. -/
def puppySounds (realm : Realm) (context : Context) : Option ScriptValue × Option ScriptValue :=
  let world : World := ⟨realm.store, context, []⟩
  let heard (world : World) := (exec (realm.host.index (.proxy puppyProxy) (.string "Sound")) world).1.toOption
  (heard world, heard (exec (Host.unbind (.declared 15) : Bridge BindError Bool) world).2)

/-- A script has the puppy, and its sound is up to dogs and then to animals; nothing takes another sound. -/
def HasPuppy (realm : Realm) (context : Context) : Prop :=
  let chain := context.lookupChain realm.host.system (.declared 16)
  let reads := context.reads realm.host (.object ⟨0⟩) "Sound"
  ((context.cache.resolve? puppyProxy).bind HostValue.asObject? = some ⟨0⟩ ∧ context.isBound (.declared 16) = true) ∧
    chain.find? reads = some (.declared 15) ∧
    (chain.filter (· ≠ .declared 15)).find? reads = some (.declared 14) ∧
    (chain.filter (· ≠ .declared 15)).find? (context.writes realm.host "Sound") = none ∧
    puppySounds realm context = (some (.string "bark"), some (.string "growl"))

instance (realm : Realm) (context : Context) : Decidable (HasPuppy realm context) :=
  inferInstanceAs (Decidable (_ ∧ _ ∧ _ ∧ _ ∧ _))

theorem resolve?_of_asObject? {cache : IdentityCache} {proxy : Proxy} {reference : ObjectRef}
    (stands : (cache.resolve? proxy).bind HostValue.asObject? = some reference) :
    cache.resolve? proxy = some (.object reference) := by
  rcases Option.bind_eq_some_iff.mp stands with ⟨value, live, object⟩
  cases value with
  | object known => rwa [Option.some.inj object] at live
  | _ => cases object

/-- Once a context has no dogs any more, its puppies growl. -/
theorem nearestOffer_decides_puppyHanded :
    let realm := core.actAll puppyHanded
    let host := realm.host
    ∃ context, realm.contexts[0]? = some context ∧
      let world : World := ⟨realm.store, context, []⟩
      let dropped := (exec (Host.unbind (.declared 15) : Bridge BindError Bool) world).2
      exec (host.index (.proxy puppyProxy) (.string "Sound")) world =
        exec (host.readFrom puppyProxy (.object ⟨0⟩) "Sound" (some (.declared 15))) world ∧
      Accord (ScriptValue.Alike context.cache)
        (exec (host.readFrom puppyProxy (.object ⟨0⟩) "Sound" (some (.declared 14))) world)
        (exec (host.index (.proxy puppyProxy) (.string "Sound")) dropped) ∧
      exec (host.assign (.proxy puppyProxy) (.string "Sound") (.string "howl")) dropped =
        (.error (host.noSuchField (.declared 16) (.string "Sound")), dropped) ∧
      puppySounds realm context = (some (.string "bark"), some (.string "growl")) := by
  intro realm host
  have reached : realm.contexts[0]?.any fun context => HasPuppy realm context := by decide +kernel
  rcases Option.any_eq_true _ _ |>.mp reached with ⟨context, present, has⟩
  rcases of_decide_eq_true has with ⟨⟨stands, bound⟩, dogs, animals, nothing, sounds⟩
  have above : .declared 15 ∈ realm.system.ancestors (.declared 16) := by decide +kernel
  rcases nearestOffer_decides puppyHanded 0 context present puppyProxy (.object ⟨0⟩) (resolve?_of_asObject? stands) bound
    (.declared 15) above "Sound" (.string "howl") with ⟨reading, writing⟩
  refine ⟨context, present, ?_, ?_, writing.missing nothing, sounds⟩
  · rw [reading.nearest]
    exact congrArg (fun decides => exec (host.readFrom puppyProxy (.object ⟨0⟩) "Sound" decides) _) dogs
  · have next := reading.next
    exact animals ▸ next

/-- A class that extends an array type. -/
def list : TypeDef := { TypeDef.ofClass "Game" "List" with base := some (.array .string) }

/-- A list is handed to a script. -/
def listHanded : List Action :=
  [ .declare list, .make (.newObject (.declared 14)), .openContext .standard, .perform 0 (.push (.object ⟨0⟩)) ]

def listProxy : Proxy := ⟨⟨5, 0⟩, .declared 14, ⟨1⟩⟩

/-- A script has the list and reads its length, which no table of a type has and no indexer takes. -/
def HasList (realm : Realm) (context : Context) : Prop :=
  let world : World := ⟨realm.store, context, []⟩
  let dropped := (exec (Host.unbind (.array .string) : Bridge BindError Bool) world).2
  let read (world : World) := (exec (realm.host.index (.proxy listProxy) (.string "Length")) world).1.toOption
  ((context.cache.resolve? listProxy).bind HostValue.asObject? = some ⟨0⟩ ∧ context.isBound (.declared 14) = true) ∧
    ((context.lookupChain realm.host.system (.declared 14)).find? fun type =>
      (context.binding? type).any (·.hasRead realm.host context "Length")) = none ∧
    read world = some (.integer 0) ∧ read dropped = some .nil

instance (realm : Realm) (context : Context) : Decidable (HasList realm context) :=
  inferInstanceAs (Decidable (_ ∧ _ ∧ _ ∧ _))

/-- A type can decide on a name without a member of the name or an indexer that takes it: the length of an array. -/
theorem not_forall_nearestMember_decides :
    ¬∀ (actions : List Action) (place : Nat) (context : Context) (proxy : Proxy) (value : HostValue) (base : TypeRef)
      (name : String),
      (core.actAll actions).contexts[place]? = some context → context.cache.resolve? proxy = some value →
      context.isBound proxy.type = true → base ∈ (core.actAll actions).system.ancestors proxy.type →
      let host := (core.actAll actions).host
      let world : World := ⟨(core.actAll actions).store, context, []⟩
      let dropped := (exec (Host.unbind base : Bridge BindError Bool) world).2
      ((context.lookupChain host.system proxy.type).find? fun type =>
        (context.binding? type).any (·.hasRead host context name)) ≠ some base →
      Accord (ScriptValue.Alike context.cache) (exec (host.index (.proxy proxy) (.string name)) world)
        (exec (host.index (.proxy proxy) (.string name)) dropped) := by
  intro claim
  let realm := core.actAll listHanded
  have reached : realm.contexts[0]?.any fun context => HasList realm context := by decide +kernel
  rcases Option.any_eq_true _ _ |>.mp reached with ⟨context, present, has⟩
  rcases of_decide_eq_true has with ⟨⟨stands, bound⟩, noMember, before, after⟩
  have above : .array .string ∈ realm.system.ancestors (.declared 14) := by decide +kernel
  have accord := claim listHanded 0 context listProxy (.object ⟨0⟩) (.array .string) "Length" present
    (resolve?_of_asObject? stands) bound above fun same => by cases noMember.symm.trans same
  have alike := accord.of_toOption before after
  cases (alike.eq_iff_of_noProxy rfl).mp (show ScriptValue.nil = .nil from rfl)

end Realm

end ScriptBridge
