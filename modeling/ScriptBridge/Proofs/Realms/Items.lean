import ScriptBridge.Proofs.Realms.Fields
import ScriptBridge.Proofs.Realms.Hidden
import ScriptBridge.Proofs.Realms.Unbinding
import ScriptBridge.Proofs.Steps.Contexts
import ScriptBridge.Proofs.Tables.Lasting

/-!
# Hidden indexers

An item of an instance is read and written through the first indexer that takes the key. A
context that has bound all members of a type tries all its indexers; one that has bound the
visible members tries these alone, also once it was shown the hidden ones. So both do the
same with a key unless a hidden indexer is the first to take it.
-/

namespace ScriptBridge

open Bridge

/-- An indexer has the accessor that is asked for, and takes a key. -/
def Context.takesKey (host : Host) (context : Context) (accessor : PropertyDef → Option MethodDef) (key : ScriptValue)
    (property : PropertyDef) : Bool :=
  (accessor property).isSome && (Host.keyType? property).any fun index => context.fits host.system key index

/-- A key names no member of the instances of a type. -/
def Context.NamesNone (context : Context) (type : TypeRef) (key : ScriptValue) : Prop :=
  ∀ name binding, key = .string name → context.binding? type = some binding →
    ∀ table ∈ [MemberTable.methods, .getters, .setters], binding.slot? table name = none

namespace Host

variable (host : Host)

/-- What the getter of an indexer gives for a key. -/
def getThrough (owner : TypeRef) (receiver : HostValue × ProxyKey) (key : ScriptValue) (property : PropertyDef)
    (index : TypeRef) (getter : MethodDef) : Bridge ScriptError HostValue := do
  let position ← host.toHost key index
  ExceptT.adapt (host.accessorFailure "get" owner property.name)
    (host.runAccessor owner getter (some receiver) [position])

/-- Hands a value to the setter of an indexer. -/
def setThrough (owner : TypeRef) (receiver : HostValue × ProxyKey) (key item : ScriptValue) (property : PropertyDef)
    (index : TypeRef) (setter : MethodDef) : Bridge ScriptError Unit := do
  if item.isNil || !(← host.fits item property.type) then
    throw (host.unexpectedValue owner property.name property.type)
  let position ← host.toHost key index
  let converted ← host.toHost item property.type
  discard <| ExceptT.adapt (host.accessorFailure "set" owner property.name)
    (host.runAccessor owner setter (some receiver) [position, converted])

/-- Reads an item by the getter of one indexer. -/
def readThrough (owner : TypeRef) (receiver : HostValue × ProxyKey) (key : ScriptValue) (property : PropertyDef) :
    Bridge ScriptError ScriptValue :=
  match keyType? property, property.getter with
  | some index, some getter => do
    let found ← host.getThrough owner receiver key property index getter
    Bridge.asScript (host.push found)
  | _, _ => return .nil

/-- Writes an item by the setter of one indexer. -/
def writeThrough (owner : TypeRef) (receiver : HostValue × ProxyKey) (key item : ScriptValue) (property : PropertyDef) :
    Bridge ScriptError Unit :=
  match keyType? property, property.setter with
  | some index, some setter => host.setThrough owner receiver key item property index setter
  | _, _ => return

/-- The item that indexers have found, or what is there without one. -/
def foundOr (above : Bridge ScriptError ScriptValue) : List ScriptValue → Bridge ScriptError ScriptValue
  | .boolean true :: found :: _ => return found
  | _ => above

variable {host} {world : World} {accessor : PropertyDef → Option MethodDef} {owner type index : TypeRef}
  {receiver : HostValue × ProxyKey} {key item : ScriptValue} {property : PropertyDef} {method : MethodDef}
  {properties indexers : List PropertyDef}

theorem takesKey_eq (takes : keyType? property = some index) (has : accessor property = some method) :
    world.context.takesKey host accessor key property = world.context.fits host.system key index := by
  rw [Context.takesKey, takes, has]
  rfl

theorem exists_accessor_of_takesKey (takes : world.context.takesKey host accessor key property = true) :
    ∃ index method, keyType? property = some index ∧ accessor property = some method := by
  rcases Bool.and_eq_true_iff.mp takes with ⟨has, taken⟩
  rcases Option.isSome_iff_exists.mp has with ⟨method, found⟩
  rcases (Option.any_eq_true _ _).mp taken with ⟨index, known, -⟩
  exact ⟨index, method, known, found⟩

/-- An item is read through the first indexer with a getter that takes the key. -/
theorem exec_getItemFrom_of_first
    (first : properties.find? (world.context.takesKey host (·.getter) key) = some property)
    (takes : keyType? property = some index) (gets : property.getter = some method) :
    exec (host.getItemFrom owner receiver key properties) world = exec (do
      let found ← host.getThrough owner receiver key property index method
      return [.boolean true, ← Bridge.asScript (host.push found)]) world := by
  -- Along the indexers: one that does not take the key is passed over without any effect.
  induction properties with
  | nil => cases first
  | cons other rest ih =>
      rw [getItemFrom]
      by_cases taken : world.context.takesKey host (·.getter) key other = true
      · rw [List.find?_cons_of_pos taken] at first
        obtain rfl := Option.some.inj first
        rw [takesKey_eq takes gets] at taken
        simp only [takes, gets]
        rw [exec_bind_of_ok (exec_fits key index world), if_pos taken, getThrough, bind_assoc]
      · rw [List.find?_cons_of_neg taken] at first
        have later := ih first
        split
        next otherIndex getter otherTakes otherGets =>
          rw [takesKey_eq otherTakes otherGets] at taken
          rw [exec_bind_of_ok (exec_fits key otherIndex world), if_neg taken]
          exact later
        next => exact later

/-- An item is written through the first indexer with a setter that takes the key. -/
theorem exec_setItemIn_of_first
    (first : properties.find? (world.context.takesKey host (·.setter) key) = some property)
    (takes : keyType? property = some index) (sets : property.setter = some method) :
    exec (host.setItemIn owner receiver key item properties) world = exec (do
      host.setThrough owner receiver key item property index method
      return [.boolean true]) world := by
  induction properties with
  | nil => cases first
  | cons other rest ih =>
      rw [setItemIn]
      by_cases taken : world.context.takesKey host (·.setter) key other = true
      · rw [List.find?_cons_of_pos taken] at first
        obtain rfl := Option.some.inj first
        rw [takesKey_eq takes sets] at taken
        simp only [takes, sets]
        rw [exec_bind_of_ok (exec_fits key index world), if_pos taken, setThrough]
        simp only [bind_assoc]
        rw [exec_bind_of_ok (exec_fits item _ world), exec_bind_of_ok (exec_fits item _ world)]
        split <;> simp only [bind_assoc]
      · rw [List.find?_cons_of_neg taken] at first
        have later := ih first
        split
        next otherIndex setter otherTakes otherSets =>
          rw [takesKey_eq otherTakes otherSets] at taken
          rw [exec_bind_of_ok (exec_fits key otherIndex world), if_neg taken]
          exact later
        next => exact later

/-- Without an indexer that takes a key, none with the accessor does. -/
theorem fits_eq_false_of_none (none : ∀ property ∈ properties, world.context.takesKey host accessor key property = false) :
    ∀ property ∈ properties, (accessor property).isSome = true → ∀ index, keyType? property = some index →
      world.context.fits host.system key index = false := by
  intro property listed has index takes
  rcases Option.isSome_iff_exists.mp has with ⟨method, found⟩
  rw [← takesKey_eq takes found]
  exact none property listed

/--
A live instance of a type that goes through some indexers, and a key that names none of its members. Arrays have no
indexers; their elements come first.
-/
structure Asks (host : Host) (context : Context) (indexers : List PropertyDef) (proxy : Proxy) (value : HostValue)
    (key : ScriptValue) : Prop where
  wired : context.Wired host.system
  live : context.cache.resolve? proxy = some value
  noArray : proxy.type.isArray = false
  serves : ∃ binding, context.binding? proxy.type = some binding ∧
    binding.ServesItems context.callables proxy.type indexers
  unnamed : context.NamesNone proxy.type key

namespace Asks

variable {proxy : Proxy} {value : HostValue}

theorem isBound (asks : host.Asks world.context indexers proxy value key) :
    world.context.isBound proxy.type = true := by
  rcases asks.serves with ⟨binding, bound, -⟩
  rw [Context.isBound, bound]
  rfl

theorem fits (asks : host.Asks world.context indexers proxy value key) :
    world.context.fits host.system (.proxy proxy) proxy.type = true :=
  Context.fits_of_lookupChain asks.wired asks.live asks.isBound List.mem_cons_self

theorem element?_eq_none (asks : host.Asks world.context indexers proxy value key) : proxy.type.element? = none := by
  have noArray := asks.noArray
  rwa [TypeRef.isArray, Option.isSome_eq_false_iff, Option.isNone_iff_eq_none] at noArray

/-- A read asks the indexers first, and then goes on to the types above. -/
theorem exec_index (asks : host.Asks world.context indexers proxy value key) :
    exec (host.index (.proxy proxy) key) world =
      exec (host.getItemFrom proxy.type (value, proxy.key) key indexers >>= foundOr
        (host.readAlong host.invoke proxy value key (world.context.lookupChain host.system proxy.type).tail)) world := by
  rcases asks.serves with ⟨binding, bound, items, makes, getter, -⟩
  have unnamed : instanceMember? binding key = none := by
    cases key with
    | string name =>
        have none := asks.unnamed name binding rfl bound
        simp [instanceMember?, none .methods (by decide), none .getters (by decide)]
    | _ => rfl
  have noElement : exec (host.readArray value proxy.type key) world = (.ok none, world) := by
    rw [readArray, asks.element?_eq_none]
    cases value.asObject? <;> rfl
  rw [index, indexBy, indexInstance, exec_bind_of_ok (exec_liveValue_of_live asks.live),
    exec_bind_of_ok (exec_ensureBound_of_isBound asks.isBound), exec_bind_of_ok (exec_context world),
    Context.lookupChain, List.tail_cons, readAlong, exec_bind_of_ok (exec_context world), bound]
  simp only [unnamed]
  rw [exec_bind_of_ok noElement]
  rcases makes with ⟨rfl, rfl⟩ | ⟨-, handle, _, rfl, registered, -⟩
  · simp only [readItem, getter]
    rfl
  · simp only [readItem, getter, Option.map_some, bind_assoc]
    rw [exec_bind, exec_invoke_itemGetter asks.live asks.fits registered, ← exec_bind]
    refine congrArg (exec · world) (congrArg _ (funext fun results => ?_))
    unfold foundOr
    split <;> simp

/-- A write asks the indexers first, and then goes on to the types above. -/
theorem exec_assign (asks : host.Asks world.context indexers proxy value key) :
    exec (host.assign (.proxy proxy) key item) world = exec (do
      let results ← host.setItemIn proxy.type (value, proxy.key) key item indexers
      if results.headD .nil = .boolean true then return
      host.writeAlong host.invoke proxy value key item (world.context.lookupChain host.system proxy.type).tail) world := by
  rcases asks.serves with ⟨binding, bound, items, makes, -, setter⟩
  have unnamed : (key.asString?.bind fun name => binding.slot? .setters name) = none := by
    cases key with
    | string name => exact asks.unnamed name binding rfl bound .setters (by decide)
    | _ => rfl
  have noElement : exec (host.writeArray value proxy.type key item) world = (.ok false, world) := by
    rw [writeArray, asks.element?_eq_none]
    cases value.asObject? <;> rfl
  rw [assign, assignBy, assignInstance, exec_bind_of_ok (exec_liveValue_of_live asks.live),
    exec_bind_of_ok (exec_ensureBound_of_isBound asks.isBound), exec_bind_of_ok (exec_context world),
    Context.lookupChain, List.tail_cons, writeAlong, exec_bind_of_ok (exec_context world), bound]
  simp only [unnamed]
  rw [exec_bind_of_ok noElement]
  rcases makes with ⟨rfl, rfl⟩ | ⟨-, _, handle, rfl, -, registered⟩
  · simp only [writeItem, setter]
    rfl
  · simp only [writeItem, setter, Option.map_some, firstResult, bind_assoc, pure_bind, Bool.false_eq_true, if_false]
    rw [exec_bind, exec_invoke_itemSetter asks.live asks.fits registered, ← exec_bind]
    simp only [decide_eq_true_eq]

/-- A read goes through the first indexer with a getter that takes the key, or on to the types above. -/
theorem exec_index_eq_first (asks : host.Asks world.context indexers proxy value key) :
    exec (host.index (.proxy proxy) key) world = exec ((indexers.find? (world.context.takesKey host (·.getter) key)).elim
      (host.readAlong host.invoke proxy value key (world.context.lookupChain host.system proxy.type).tail)
      (host.readThrough proxy.type (value, proxy.key) key)) world := by
  cases first : indexers.find? (world.context.takesKey host (·.getter) key) with
  | none =>
      have none := fun property listed => Bool.eq_false_iff.mpr (List.find?_eq_none.mp first property listed)
      rw [asks.exec_index, exec_bind_of_ok (exec_getItemFrom_of_foreign _ _ _ (fits_eq_false_of_none none))]
      rfl
  | some property =>
      rcases exists_accessor_of_takesKey (List.find?_some first) with ⟨index, getter, takes, gets⟩
      rw [asks.exec_index, exec_bind, exec_getItemFrom_of_first first takes gets, ← exec_bind]
      simp only [bind_assoc, pure_bind, foundOr, bind_pure, Option.elim_some, readThrough, takes, gets]

/-- A write goes through the first indexer with a setter that takes the key, or on to the types above. -/
theorem exec_assign_eq_first (asks : host.Asks world.context indexers proxy value key) (item : ScriptValue) :
    exec (host.assign (.proxy proxy) key item) world =
      exec ((indexers.find? (world.context.takesKey host (·.setter) key)).elim
        (host.writeAlong host.invoke proxy value key item (world.context.lookupChain host.system proxy.type).tail)
        (host.writeThrough proxy.type (value, proxy.key) key item)) world := by
  cases first : indexers.find? (world.context.takesKey host (·.setter) key) with
  | none =>
      have none := fun property listed => Bool.eq_false_iff.mpr (List.find?_eq_none.mp first property listed)
      rw [asks.exec_assign, exec_bind_of_ok (exec_setItemIn_of_ignored _ _ _ _ (fits_eq_false_of_none none))]
      rfl
  | some property =>
      rcases exists_accessor_of_takesKey (List.find?_some first) with ⟨index, setter, takes, sets⟩
      rw [asks.exec_assign, exec_bind, exec_setItemIn_of_first first takes sets, ← exec_bind]
      simp only [bind_assoc, pure_bind, List.headD_cons, if_true, bind_pure_unit, Option.elim_some, writeThrough, takes,
        sets]

end Asks

variable {left right : World} {otherKey otherItem : ScriptValue}

/-- What means the same in two contexts is taken by the same indexers. -/
theorem takesKey_eq_of_same (same : key.SameIn left.context right.context otherKey) :
    right.context.takesKey host accessor otherKey = left.context.takesKey host accessor key := by
  funext property
  simp only [Context.takesKey, same.fits]

/-- The same indexer gives the same for the same key and instance. -/
theorem accord_readThrough (store : right.store = left.store)
    (same : key.SameIn left.context right.context otherKey) (value : HostValue) (proxyKey otherProxyKey : ProxyKey) :
    Accord ScriptValue.HandedAlike
      (exec (host.readThrough owner (value, proxyKey) key property) left)
      (exec (host.readThrough owner (value, otherProxyKey) otherKey property) right) := by
  rw [readThrough, readThrough]
  split
  next index getter _ _ =>
    rw [getThrough, getThrough, bind_assoc, bind_assoc]
    refine (accord_toHost same store index).bind fun position _ _ _ same store => ?_
    subst same
    refine (accord_runAccessor store _ owner getter value proxyKey otherProxyKey [position]).bind
      fun found _ _ _ same store => ?_
    subst same
    exact accord_push store found
  next => exact fun _ _ => ⟨store, .ok (.plain rfl)⟩

theorem accord_writeThrough (store : right.store = left.store)
    (same : key.SameIn left.context right.context otherKey) (sameItem : item.SameIn left.context right.context otherItem)
    (value : HostValue) (proxyKey otherProxyKey : ProxyKey) :
    Accord (fun _ _ => Eq)
      (exec (host.writeThrough owner (value, proxyKey) key item property) left)
      (exec (host.writeThrough owner (value, otherProxyKey) otherKey otherItem property) right) := by
  rw [writeThrough, writeThrough]
  split
  next index setter _ _ =>
    rw [setThrough, setThrough, exec_bind_of_ok (exec_fits item _ left), exec_bind_of_ok (exec_fits otherItem _ right),
      sameItem.isNil, sameItem.fits]
    split
    · exact fun _ _ => ⟨store, .error _⟩
    · rw [exec_bind, exec_bind, exec_toHost, exec_toHost, same.toHost]
      cases left.context.toHost host.system key index with
      | error error => exact fun _ _ => ⟨store, .error error⟩
      | ok position =>
          dsimp only
          rw [exec_bind, exec_bind, exec_toHost, exec_toHost, sameItem.toHost]
          cases left.context.toHost host.system item property.type with
          | error error => exact fun _ _ => ⟨store, .error error⟩
          | ok converted =>
              exact (accord_runAccessor store _ owner setter value proxyKey otherProxyKey [position, converted]).map
                fun _ _ _ _ _ => rfl
  next => exact fun _ _ => ⟨store, .ok rfl⟩

/-- An access to an item, the access through one indexer, and the access to what the types above have. -/
structure ItemAccess (α : Type) where
  run : Bridge ScriptError α
  through : PropertyDef → Bridge ScriptError α
  above : Bridge ScriptError α

/-- A script reads an item of an instance. -/
def reading (host : Host) (context : Context) (proxy : Proxy) (value : HostValue) (key : ScriptValue) :
    ItemAccess ScriptValue where
  run := host.index (.proxy proxy) key
  through := host.readThrough proxy.type (value, proxy.key) key
  above := host.readAlong host.invoke proxy value key (context.lookupChain host.system proxy.type).tail

/-- A script writes an item of an instance. -/
def writing (host : Host) (context : Context) (proxy : Proxy) (value : HostValue) (key item : ScriptValue) :
    ItemAccess Unit where
  run := host.assign (.proxy proxy) key item
  through := host.writeThrough proxy.type (value, proxy.key) key item
  above := host.writeAlong host.invoke proxy value key item (context.lookupChain host.system proxy.type).tail

/--
What decides on an access to an item where only the visible indexers of a type are tried, and where all of them are:
the first that is tried and takes the key, and if none does the types above. If the first of all that takes the key is
visible the access has the same outcome in both.
-/
structure FirstDecides {α : Type} (related : IdentityCache → IdentityCache → α → α → Prop) (indexers : List PropertyDef)
    (takes : PropertyDef → Bool) (access otherAccess : ItemAccess α) (shown whole : World) : Prop where
  visibly : exec access.run shown = exec (((indexers.filter fun property => property.visibility = .visible).find?
    takes).elim access.above access.through) shown
  wholly : exec otherAccess.run whole = exec ((indexers.find? takes).elim otherAccess.above otherAccess.through) whole
  alike : ∀ property, indexers.find? takes = some property → property.visibility = .visible →
    Accord related (exec access.run shown) (exec otherAccess.run whole)

theorem find?_filter_of_find? {α : Type} {kept taken : α → Bool} {items : List α} {item : α}
    (first : items.find? taken = some item) (keeps : kept item = true) :
    (items.filter kept).find? taken = some item := by
  rw [List.find?_filter]
  rcases List.find?_eq_some_iff_append.mp first with ⟨takes, before, after, rfl, others⟩
  refine List.find?_eq_some_iff_append.mpr ⟨by simp [keeps, takes], before, after, rfl, fun other listed => ?_⟩
  have passes := others other listed
  simp_all

section Decides

variable {proxy other : Proxy} {value : HostValue} (store : right.store = left.store) (sameType : other.type = proxy.type)
  (asks : host.Asks left.context (indexers.filter fun property => property.visibility = .visible) proxy value key)
  (otherAsks : host.Asks right.context indexers other value otherKey)
  (same : key.SameIn left.context right.context otherKey)

include store sameType asks otherAsks same

theorem reading_firstDecides :
    FirstDecides ScriptValue.HandedAlike indexers (left.context.takesKey host (·.getter) key)
      (host.reading left.context proxy value key) (host.reading right.context other value otherKey) left right := by
  have visibly := asks.exec_index_eq_first
  have wholly := otherAsks.exec_index_eq_first
  rw [takesKey_eq_of_same same] at wholly
  refine ⟨visibly, wholly, fun property first visible => ?_⟩
  rw [reading, reading, visibly, wholly, find?_filter_of_find? first (decide_eq_true visible), first, sameType]
  exact accord_readThrough store same value proxy.key other.key

theorem writing_firstDecides (sameItem : item.SameIn left.context right.context otherItem) :
    FirstDecides (fun _ _ => Eq) indexers (left.context.takesKey host (·.setter) key)
      (host.writing left.context proxy value key item) (host.writing right.context other value otherKey otherItem)
      left right := by
  have visibly := asks.exec_assign_eq_first item
  have wholly := otherAsks.exec_assign_eq_first otherItem
  rw [takesKey_eq_of_same same] at wholly
  refine ⟨visibly, wholly, fun property first visible => ?_⟩
  rw [writing, writing, visibly, wholly, find?_filter_of_find? first (decide_eq_true visible), first, sameType]
  exact accord_writeThrough store same sameItem value proxy.key other.key

end Decides

end Host

namespace Realm

/--
In a run, the context at a place has bound a type with an access, while the indexers of the type were the given ones,
and has not dropped it since.
-/
inductive HasBound (place : Nat) (type : TypeRef) (access : MemberAccess) (indexers : List PropertyDef) :
    List Action → Prop
  | bound {before later : List Action} {mode : BindingMode} {context : Context} {table : TableId} {after : World}
      (present : (core.actAll before).contexts[place]? = some context) (unbound : context.isBound type = false)
      (listed : Catalog.keyedIndexers (core.actAll before).system type .all = indexers)
      (binding : exec ((core.actAll before).host.bindWith type access mode) ⟨(core.actAll before).store, context, []⟩ =
        (.ok table, after))
      (kept : ∀ action ∈ later, action ≠ .perform place (.unbind type)) :
      HasBound place type access indexers (before ++ .perform place (.bindWith type access mode) :: later)

variable {place : Nat} {context : Context} {type : TypeRef} {access : MemberAccess} {indexers : List PropertyDef}
  {actions : List Action}

/-- The type goes through the indexers that its walk took, whatever is shown of it later. -/
theorem HasBound.serves (hasBound : HasBound place type access indexers actions)
    (admits : access.admits .visible = true)
    (present : (core.actAll actions).contexts[place]? = some context) :
    ∃ binding, context.binding? type = some binding ∧
      binding.ServesItems context.callables type (indexers.filter fun property => access.admits property.visibility) := by
  cases hasBound with
  | @bound before later mode opened table after openedPresent unbound listed binding kept =>
      have opens : ((core.actAll before).act (.perform place (.bindWith type access mode))).contexts[place]? =
          some after.context := by
        have inBounds := (Array.getElem?_eq_some_iff.mp openedPresent).1
        rw [act_perform openedPresent, Host.perform, Host.answerBind, exec_map, exec_adapt, binding]
        simp [inBounds]
      rcases Host.servesItems_of_bindWithin unbound binding with ⟨made, bound, serves⟩
      -- Whatever comes later leaves the handles of the accessors alone, and only adds callables.
      rcases boundAs_actAll Host.items_perform opens ⟨made, bound, rfl, rfl⟩ kept with
        ⟨later, laterPresent, last, lastBound, getter, setter⟩
      rw [actAll_append, actAll_cons] at present
      obtain rfl := Option.some.inj (laterPresent.symm.trans present)
      have callables := keepsCallables_actAll opens _ laterPresent
      have listedStill : Catalog.keyedIndexers (core.actAll before).host.system type .all = indexers := listed
      rw [Catalog.keyedIndexers_eq_filter admits, listedStill] at serves
      exact ⟨last, lastBound, serves.later callables getter setter⟩

/--
An item is read and written through the first indexer that takes the key. In every run in which one context has bound
the visible members of a type, whether or not hidden ones have been shown since, and another one all of them, for an
instance that both have and a key that means the same in both and names no member: reads and writes at the key have the
same outcome in both if the first indexer that takes it is visible. Where none of the visible indexers takes the key the
first context goes on to the types above, though a hidden one may take it in the second.
-/
theorem firstIndexer_decides (actions : List Action) (place otherPlace : Nat) (left right : Context)
    (present : (core.actAll actions).contexts[place]? = some left)
    (otherPresent : (core.actAll actions).contexts[otherPlace]? = some right) (type : TypeRef)
    (noArray : type.isArray = false) (indexers : List PropertyDef)
    (visibly : HasBound place type .visibleOnly indexers actions)
    (wholly : HasBound otherPlace type .all indexers actions) (proxy other : Proxy) (ofType : proxy.type = type)
    (value : HostValue) (live : left.cache.resolve? proxy = some value)
    (same : proxy.SameIn left.cache right.cache other) (key otherKey item otherItem : ScriptValue)
    (sameKey : key.SameIn left right otherKey) (sameItem : item.SameIn left right otherItem)
    (unnamed : left.NamesNone type key) (otherUnnamed : right.NamesNone type otherKey) :
    let host := (core.actAll actions).host
    let shown : World := ⟨(core.actAll actions).store, left, []⟩
    let whole : World := ⟨(core.actAll actions).store, right, []⟩
    Host.FirstDecides ScriptValue.HandedAlike indexers (left.takesKey host (·.getter) key)
        (host.reading left proxy value key) (host.reading right other value otherKey) shown whole ∧
      Host.FirstDecides (fun _ _ => Eq) indexers (left.takesKey host (·.setter) key)
        (host.writing left proxy value key item) (host.writing right other value otherKey otherItem) shown whole := by
  intro host shown whole
  subst ofType
  have asks : host.Asks left (indexers.filter fun property => property.visibility = .visible) proxy value key := by
    refine ⟨wired_actAll actions place left present, live, noArray, ?_, unnamed⟩
    rcases visibly.serves rfl present with ⟨binding, bound, serves⟩
    have admitted : (indexers.filter fun property => MemberAccess.visibleOnly.admits property.visibility) =
        indexers.filter fun property => property.visibility = .visible :=
      List.filter_congr fun property _ => by cases property.visibility <;> rfl
    exact ⟨binding, bound, admitted ▸ serves⟩
  have otherAsks : host.Asks right indexers other value otherKey := by
    refine ⟨wired_actAll actions otherPlace right otherPresent, same.value.trans live, ?_, ?_, ?_⟩
    · rwa [same.type]
    · rcases wholly.serves rfl otherPresent with ⟨binding, bound, serves⟩
      have admitted : (indexers.filter fun property => MemberAccess.all.admits property.visibility) = indexers :=
        List.filter_eq_self.mpr fun property _ => rfl
      exact ⟨binding, same.type ▸ bound, same.type ▸ admitted ▸ serves⟩
    · rwa [same.type]
  exact ⟨@Host.reading_firstDecides host key indexers shown whole otherKey proxy other value rfl same.type asks
      otherAsks sameKey,
    @Host.writing_firstDecides host key item indexers shown whole otherKey otherItem proxy other value rfl same.type asks
      otherAsks sameKey sameItem⟩

/-- A cabinet shows what is in its drawers by their number, and hides whether it is locked. -/
def cabinet : TypeDef :=
  ((TypeDef.ofClass "Game" "Cabinet").addProperty "Item" .string false .visible [.plain "drawer" .int32]
    (some (.native 0)) none).addProperty "Item" .string false .hidden [.plain "locked" .boolean] (some (.native 1)) none

/-- Cabinets are declared, and there are a cabinet and two contexts. -/
def cabinetDeclared : List Action :=
  [ .declare cabinet, .addNative fun _ invocation => pure (invocation.complete (.string "letters")),
    .addNative fun _ invocation => pure (invocation.complete (.string "key")), .make (.newObject (.declared 14)),
    .openContext .standard, .openContext .standard ]

/-- A context binds the visible members of cabinets, and shows the hidden ones. -/
def cabinetShown : List Action :=
  cabinetDeclared ++
    [.perform 0 (.bindWith (.declared 14) .visibleOnly .eager), .perform 0 (.showHidden (.declared 14))]

/-- The other context binds all members, and both have the cabinet. -/
def cabinetBound : List Action :=
  cabinetShown ++
    [ .perform 1 (.bindWith (.declared 14) .all .eager), .perform 0 (.push (.object ⟨0⟩)),
      .perform 1 (.push (.object ⟨0⟩)) ]

def cabinetIndexers : List PropertyDef := Catalog.keyedIndexers (core.actAll cabinetDeclared).system (.declared 14) .all

theorem hasBound_cabinets :
    HasBound 0 (.declared 14) .visibleOnly cabinetIndexers cabinetBound ∧
      HasBound 1 (.declared 14) .all cabinetIndexers cabinetBound := by
  constructor
  · have reached : (core.actAll cabinetDeclared).contexts[0]?.any fun context =>
        context.isBound (.declared 14) = false ∧
        (exec ((core.actAll cabinetDeclared).host.bindWith (.declared 14) .visibleOnly .eager)
          ⟨(core.actAll cabinetDeclared).store, context, []⟩).1.isOk = true := by
      decide +kernel
    rcases (Option.any_eq_true _ _).mp reached with ⟨context, present, holds⟩
    rcases of_decide_eq_true holds with ⟨unbound, binds⟩
    rcases exists_ok_of_isOk binds with ⟨table, run⟩
    rw [cabinetBound, cabinetShown, List.append_assoc]
    refine .bound present unbound rfl run fun action listed same => ?_
    subst same
    simp at listed
  · have reached : (core.actAll cabinetShown).contexts[1]?.any fun context =>
        context.isBound (.declared 14) = false ∧
        (exec ((core.actAll cabinetShown).host.bindWith (.declared 14) .all .eager)
          ⟨(core.actAll cabinetShown).store, context, []⟩).1.isOk = true := by
      decide +kernel
    rcases (Option.any_eq_true _ _).mp reached with ⟨context, present, holds⟩
    rcases of_decide_eq_true holds with ⟨unbound, binds⟩
    rcases exists_ok_of_isOk binds with ⟨table, run⟩
    have keepsSystem (realm : Realm) (operation : Operation) : (realm.act (.perform 0 operation)).system = realm.system :=
      system_act_perform realm 0 operation
    have sameSystem : (core.actAll cabinetShown).system = (core.actAll cabinetDeclared).system := by
      rw [cabinetShown, actAll_append, actAll_cons, actAll_cons, actAll_nil, keepsSystem, keepsSystem]
    refine .bound present unbound ?_ run fun action listed same => ?_
    · rw [sameSystem]
      rfl
    · subst same
      simp at listed

/-- The proxy that a context has for the cabinet. -/
def cabinetProxy (tag : CacheTag) : Proxy := ⟨⟨3, 0⟩, .declared 14, tag⟩

/-- What a script of a context reads from the cabinet. -/
def readsAt (realm : Realm) (context : Context) (key : ScriptValue) : Option ScriptValue :=
  (exec (realm.host.index (.proxy (cabinetProxy context.cache.tag)) key) ⟨realm.store, context, []⟩).1.toOption

/-- A script of a context has the cabinet, and reads something from a drawer and something else behind the lock. -/
def HasCabinet (realm : Realm) (tag : CacheTag) (locked : ScriptValue) (context : Context) : Prop :=
  context.cache.tag = tag ∧ (context.cache.resolve? (cabinetProxy tag)).bind HostValue.asObject? = some ⟨0⟩ ∧
    readsAt realm context (.integer 1) = some (.string "letters") ∧ readsAt realm context (.boolean true) = some locked

instance (realm : Realm) (tag : CacheTag) (locked : ScriptValue) (context : Context) :
    Decidable (HasCabinet realm tag locked context) :=
  inferInstanceAs (Decidable (_ ∧ _ ∧ _ ∧ _))

theorem exists_hasCabinet : ∃ left right, (core.actAll cabinetBound).contexts[0]? = some left ∧
    (core.actAll cabinetBound).contexts[1]? = some right ∧
    HasCabinet (core.actAll cabinetBound) ⟨1⟩ .nil left ∧ (left.binding? (.declared 14)).any (·.showsHidden) = true ∧
    HasCabinet (core.actAll cabinetBound) ⟨2⟩ (.string "key") right := by
  have reached : ((core.actAll cabinetBound).contexts[0]?.any fun left =>
      HasCabinet (core.actAll cabinetBound) ⟨1⟩ .nil left ∧
        (left.binding? (.declared 14)).any (·.showsHidden) = true) = true ∧
      ((core.actAll cabinetBound).contexts[1]?.any fun right =>
        HasCabinet (core.actAll cabinetBound) ⟨2⟩ (.string "key") right) = true := by
    decide +kernel
  rcases (Option.any_eq_true _ _).mp reached.1 with ⟨left, present, holds⟩
  rcases (Option.any_eq_true _ _).mp reached.2 with ⟨right, otherPresent, otherHolds⟩
  rcases of_decide_eq_true holds with ⟨has, shows⟩
  exact ⟨left, right, present, otherPresent, has, shows, of_decide_eq_true otherHolds⟩

/-- Both contexts read the same from a drawer; what is behind the lock is read only where all members were bound. -/
theorem firstIndexer_decides_cabinet :
    let realm := core.actAll cabinetBound
    let host := realm.host
    ∃ left right, realm.contexts[0]? = some left ∧ realm.contexts[1]? = some right ∧
      let shown : World := ⟨realm.store, left, []⟩
      let whole : World := ⟨realm.store, right, []⟩
      let above := (left.lookupChain host.system (.declared 14)).tail
      Accord ScriptValue.HandedAlike (exec (host.index (.proxy (cabinetProxy ⟨1⟩)) (.integer 1)) shown)
          (exec (host.index (.proxy (cabinetProxy ⟨2⟩)) (.integer 1)) whole) ∧
        exec (host.index (.proxy (cabinetProxy ⟨1⟩)) (.boolean true)) shown =
          exec (host.readAlong host.invoke (cabinetProxy ⟨1⟩) (.object ⟨0⟩) (.boolean true) above) shown ∧
        HasCabinet realm ⟨1⟩ .nil left ∧ HasCabinet realm ⟨2⟩ (.string "key") right := by
  intro realm host
  rcases exists_hasCabinet with ⟨left, right, present, otherPresent, has, -, otherHas⟩
  have decided : realm.contexts[0]?.any fun context =>
      (cabinetIndexers.find? (context.takesKey host (·.getter) (.integer 1))).any (·.visibility = .visible) ∧
        ((cabinetIndexers.filter fun property => property.visibility = .visible).find?
          (context.takesKey host (·.getter) (.boolean true))).isNone := by
    decide +kernel
  rcases (Option.any_eq_true _ _).mp decided with ⟨context, known, holds⟩
  obtain rfl := Option.some.inj (present.symm.trans known)
  rcases of_decide_eq_true holds with ⟨drawer, locked⟩
  rcases (Option.any_eq_true _ _).mp drawer with ⟨property, first, visible⟩
  have live := resolve?_of_asObject? has.2.1
  have otherLive := resolve?_of_asObject? otherHas.2.1
  have decides (key : ScriptValue) (noProxy : key.asProxy? = none) (noTable : key.asTable? = none)
      (noName : key.asString? = none) :=
    firstIndexer_decides cabinetBound 0 1 left right present otherPresent (.declared 14) rfl cabinetIndexers
      hasBound_cabinets.1 hasBound_cabinets.2 (cabinetProxy ⟨1⟩) (cabinetProxy ⟨2⟩) rfl (.object ⟨0⟩) live
      (Proxy.sameIn_of_live rfl live otherLive) key key .nil .nil (.plain noProxy noTable) (.plain rfl rfl)
      (fun name _ same => by rw [same] at noName; cases noName) (fun name _ same => by rw [same] at noName; cases noName)
  refine ⟨left, right, present, otherPresent, ?_, ?_, has, otherHas⟩
  · exact (decides (.integer 1) rfl rfl rfl).1.alike property first (of_decide_eq_true visible)
  · have visibly := (decides (.boolean true) rfl rfl rfl).1.visibly
    rwa [Option.isNone_iff_eq_none.mp locked] at visibly

/-- The hidden indexer is never asked after the hidden members were shown, though it is where all members were bound. -/
theorem not_forall_hiddenIndexers_asked :
    ¬∀ (actions : List Action) (place otherPlace : Nat) (left right : Context) (type : TypeRef)
        (indexers : List PropertyDef) (proxy other : Proxy) (value : HostValue) (key : ScriptValue),
      (core.actAll actions).contexts[place]? = some left → (core.actAll actions).contexts[otherPlace]? = some right →
      HasBound place type .visibleOnly indexers actions → (left.binding? type).any (·.showsHidden) = true →
      HasBound otherPlace type .all indexers actions → proxy.type = type → left.cache.resolve? proxy = some value →
      proxy.SameIn left.cache right.cache other → key.SameIn left right key →
      Accord ScriptValue.HandedAlike
        (exec ((core.actAll actions).host.index (.proxy proxy) key) ⟨(core.actAll actions).store, left, []⟩)
        (exec ((core.actAll actions).host.index (.proxy other) key) ⟨(core.actAll actions).store, right, []⟩) := by
  intro claim
  rcases exists_hasCabinet with ⟨left, right, present, otherPresent, has, shows, otherHas⟩
  have live := resolve?_of_asObject? has.2.1
  have otherLive := resolve?_of_asObject? otherHas.2.1
  have accord := claim cabinetBound 0 1 left right (.declared 14) cabinetIndexers (cabinetProxy ⟨1⟩) (cabinetProxy ⟨2⟩)
    (.object ⟨0⟩) (.boolean true) present otherPresent hasBound_cabinets.1 shows hasBound_cabinets.2 rfl live
    (Proxy.sameIn_of_live rfl live otherLive) (.plain rfl rfl)
  have reads := has.2.2.2
  have otherReads := otherHas.2.2.2
  rw [readsAt, has.1] at reads
  rw [readsAt, otherHas.1] at otherReads
  cases accord.of_toOption reads otherReads

end Realm

end ScriptBridge
