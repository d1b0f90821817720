import ScriptBridge.Proofs.Realms.Refusals

/-!
# Where a lookup stops

A lookup of a name goes along the chain of a type. It passes over the types that are not
bound or do not offer the name, and stops at the first one that does: what becomes of it
is up to that type, and to none behind it. A type offers a name by a member of the name,
as the length of an array, or through an indexer that takes the name for a key.
-/

namespace ScriptBridge

open Bridge

/-- The indexers with a getter that are asked to take a read. -/
def Context.gettableItems (context : Context) (binding : TypeBinding) : List PropertyDef :=
  match binding.itemGetter.bind context.callable? with
  | some (.itemGetter _ properties) => properties.filter fun property => property.getter.isSome
  | _ => []

/-- One of some indexers takes a name for a key. -/
def Context.takesName (host : Host) (context : Context) (name : String) (properties : List PropertyDef) : Bool :=
  properties.any fun property =>
    (Host.keyType? property).any fun index => context.fits host.system (.string name) index

/-- A binding has a member of a name to read from an instance, or an indexer that takes the name. -/
def TypeBinding.hasRead (host : Host) (context : Context) (name : String) (binding : TypeBinding) : Bool :=
  (binding.slot? .methods name).isSome || (binding.slot? .getters name).isSome ||
    context.takesName host name (context.gettableItems binding)

/-- The binding of a type offers a name to reads of an instance; that of an array type also offers its length. -/
def TypeBinding.offersRead (host : Host) (context : Context) (value : HostValue) (name : String) (type : TypeRef)
    (binding : TypeBinding) : Bool :=
  binding.hasRead host context name || type.isArray && value.asObject?.isSome && name == "Length"

/-- The binding of a type offers a name to writes to an instance. -/
def TypeBinding.offersWrite (host : Host) (context : Context) (name : String) (binding : TypeBinding) : Bool :=
  (binding.slot? .setters name).isSome || context.takesName host name (context.settableItems binding)

namespace Context

/-- The type is bound and offers a name to reads of an instance. -/
def reads (host : Host) (context : Context) (value : HostValue) (name : String) (type : TypeRef) : Bool :=
  (context.binding? type).any fun binding => binding.offersRead host context value name type

/-- The type is bound and offers a name to writes to an instance. -/
def writes (host : Host) (context : Context) (name : String) (type : TypeRef) : Bool :=
  (context.binding? type).any fun binding => binding.offersWrite host context name

variable {host : Host} {context : Context} {name : String} {properties : List PropertyDef}

theorem takesName_eq_true_iff : context.takesName host name properties = true ↔
    ∃ property ∈ properties, ∃ index, Host.keyType? property = some index ∧
      context.fits host.system (.string name) index = true := by
  simp only [takesName, List.any_eq_true, Option.any_eq_true]

theorem not_takesName_iff : context.takesName host name properties = false ↔
    ∀ property ∈ properties, ∀ index, Host.keyType? property = some index →
      context.fits host.system (.string name) index = false := by
  rw [← Bool.not_eq_true, takesName_eq_true_iff]
  simp

end Context

namespace Host

variable {host : Host} {world after : World} {proxy : Proxy} {value read : HostValue} {type : TypeRef} {name : String}
  {properties : List PropertyDef}

/-- A name is no position; of an array it can only ask for the length. -/
theorem exec_readArray_of_name (offersNone : (type.isArray && read.asObject?.isSome && name == "Length") = false) :
    exec (host.readArray read type (.string name)) world = (.ok none, world) := by
  simp only [readArray]
  split
  next reference element isObject isArray =>
    have other : (ScriptValue.string name = .string "Length") = False := by
      simpa [TypeRef.isArray, isObject, isArray] using offersNone
    rw [exec_bind_of_ok (exec_store world)]
    simp [other, ScriptValue.asInteger?]
  next => rfl

/-- The length of an array is up to the host. -/
theorem exec_readArray_length (isArray : type.isArray = true) (isObject : read.asObject?.isSome = true)
    (store : HostStore) : ∃ length, ∀ world : World, world.store = store →
      exec (host.readArray read type (.string "Length")) world = (.ok (some (.integer length)), world) := by
  rcases Option.isSome_iff_exists.mp isArray with ⟨element, known⟩
  rcases Option.isSome_iff_exists.mp isObject with ⟨reference, found⟩
  refine ⟨Int64.ofNat ((store.instance? reference).map (·.elements) |>.getD []).length, fun world same => ?_⟩
  simp only [readArray, known, found]
  rw [exec_bind_of_ok (exec_store world), same]
  rfl

theorem exec_getItemFrom_of_foreign (owner : TypeRef) (receiver : HostValue × ProxyKey) (key : ScriptValue)
    (foreign : ∀ property ∈ properties, property.getter.isSome = true → ∀ index, keyType? property = some index →
      world.context.fits host.system key index = false) :
    exec (host.getItemFrom owner receiver key properties) world = (.ok [.boolean false], world) := by
  induction properties with
  | nil => rfl
  | cons property rest ih =>
      have later := ih fun other listed => foreign other (List.mem_cons_of_mem _ listed)
      rw [getItemFrom]
      split
      next index getter takes gets =>
        rw [exec_bind_of_ok (exec_fits key index world),
          foreign property List.mem_cons_self (by rw [gets]; rfl) index takes]
        exact later
      next => exact later

/-- An indexer that takes a key gives an item for it, or fails. -/
theorem exists_item_of_taken (owner : TypeRef) (receiver : HostValue × ProxyKey) {key : ScriptValue}
    (taken : ∃ property ∈ properties, property.getter.isSome = true ∧ ∃ index, keyType? property = some index ∧
      world.context.fits host.system key index = true) {results : List ScriptValue}
    (run : exec (host.getItemFrom owner receiver key properties) world = (.ok results, after)) :
    ∃ item, results = [.boolean true, item] := by
  induction properties with
  | nil =>
      rcases taken with ⟨_, listed, -⟩
      cases listed
  | cons property rest ih =>
      have behind := ((List.exists_mem_cons_iff _ _ _).mp taken).resolve_left
      rw [getItemFrom] at run
      split at run
      next index getter takes gets =>
        rw [exec_bind_of_ok (exec_fits key index world)] at run
        cases fits : world.context.fits host.system key index with
        | true =>
            simp only [fits, if_true] at run
            rcases exec_bind_eq_ok run with ⟨_, _, -, run⟩
            rcases exec_bind_eq_ok run with ⟨_, _, -, run⟩
            rcases exec_bind_eq_ok run with ⟨item, _, -, run⟩
            cases run
            exact ⟨item, rfl⟩
        | false =>
            simp only [fits, Bool.false_eq_true, if_false] at run
            refine ih (behind ?_) run
            rintro ⟨-, other, otherTakes, otherFits⟩
            rw [← Option.some.inj (takes.symm.trans otherTakes), fits] at otherFits
            cases otherFits
      next noGetter =>
        refine ih (behind ?_) run
        rintro ⟨gettable, index, takes, -⟩
        rcases Option.isSome_iff_exists.mp gettable with ⟨getter, gets⟩
        exact noGetter _ _ takes gets

/-- A live instance is passed to the indexers of its type. -/
theorem exec_invoke_itemGetter {getter : CallableHandle} (live : world.context.cache.resolve? proxy = some value)
    (fits : world.context.fits host.system (.proxy proxy) type = true)
    (registered : Registered world.context.callables getter (.itemGetter type properties)) (key : ScriptValue) :
    exec (host.invoke getter [.proxy proxy, key]) world =
      exec (host.getItemFrom type (value, proxy.key) key properties) world := by
  rw [exec_invoke_of_generated registered rfl, runMember]
  cases properties with
  | nil => rfl
  | cons first rest =>
      rw [getItem, argumentAt, List.getD_cons_zero, exec_bind_of_ok (exec_expectInstance_of_live live fits _)]
      rfl

/-- Indexers that do not take a name are asked and leave all as it was. -/
theorem exec_readItem_of_not_taken {binding : TypeBinding}
    (wired : ∀ getter, binding.itemGetter = some getter →
      ∃ properties, Registered world.context.callables getter (.itemGetter type properties))
    (live : world.context.cache.resolve? proxy = some value)
    (fits : world.context.fits host.system (.proxy proxy) type = true)
    (notTaken : world.context.takesName host name (world.context.gettableItems binding) = false) :
    exec (readItem host.invoke binding (.proxy proxy) (.string name)) world = (.ok none, world) := by
  simp only [readItem]
  split
  next => rfl
  next getter given =>
    rcases wired getter given with ⟨properties, registered⟩
    rw [Context.gettableItems, given, Option.bind_some, show world.context.callable? getter = _ from registered,
      Context.not_takesName_iff] at notTaken
    have foreign := fun property (listed : property ∈ properties) (gettable : property.getter.isSome = true) =>
      notTaken property (List.mem_filter.mpr ⟨listed, gettable⟩)
    have called := exec_invoke_itemGetter live fits registered (.string name)
    rw [exec_getItemFrom_of_foreign _ _ _ foreign] at called
    rw [exec_bind_of_ok called]
    rfl

/-- An indexer that takes the name decides what is read. -/
theorem exec_readItem_ne_none {binding : TypeBinding}
    (wired : ∀ getter, binding.itemGetter = some getter →
      ∃ properties, Registered world.context.callables getter (.itemGetter type properties))
    (live : world.context.cache.resolve? proxy = some value)
    (fits : world.context.fits host.system (.proxy proxy) type = true)
    (taken : world.context.takesName host name (world.context.gettableItems binding) = true) :
    exec (readItem host.invoke binding (.proxy proxy) (.string name)) world ≠ (.ok none, after) := by
  intro run
  simp only [readItem] at run
  split at run
  next absent =>
    rw [Context.gettableItems, absent] at taken
    cases taken
  next getter given =>
    rcases wired getter given with ⟨properties, registered⟩
    rw [Context.gettableItems, given, Option.bind_some, show world.context.callable? getter = _ from registered,
      Context.takesName_eq_true_iff] at taken
    rcases exec_bind_eq_ok run with ⟨results, middle, called, shown⟩
    rw [exec_invoke_itemGetter live fits registered] at called
    have found : ∃ item, results = [.boolean true, item] := by
      refine exists_item_of_taken _ _ ?_ called
      rcases taken with ⟨property, listed, index, takes⟩
      exact ⟨property, (List.mem_filter.mp listed).1, (List.mem_filter.mp listed).2, index, takes⟩
    rcases found with ⟨item, rfl⟩
    cases shown

/-- What a read of a name from an instance comes to if a type decides; without any it is nil. -/
def readFrom (host : Host) (proxy : Proxy) (value : HostValue) (name : String) (decides : Option TypeRef) :
    Bridge ScriptError ScriptValue :=
  host.readAlong host.invoke proxy value (.string name) decides.toList

/-- What a write of a name to an instance comes to if a type decides; without any it is refused. -/
def writeTo (host : Host) (proxy : Proxy) (value : HostValue) (name : String) (item : ScriptValue)
    (decides : Option TypeRef) : Bridge ScriptError Unit :=
  host.writeAlong host.invoke proxy value (.string name) item decides.toList

section Reads

variable (wired : world.context.Wired host.system) (live : world.context.cache.resolve? proxy = some value)

include wired live

/-- A type that does not offer the name is passed over. -/
theorem exec_readAlong_of_not_reads (fits : world.context.fits host.system (.proxy proxy) type = true)
    (passes : world.context.reads host read name type = false) (rest : List TypeRef) :
    exec (host.readAlong host.invoke proxy read (.string name) (type :: rest)) world =
      exec (host.readAlong host.invoke proxy read (.string name) rest) world := by
  rw [readAlong, exec_bind_of_ok (exec_context world)]
  cases bound : world.context.binding? type with
  | none => rfl
  | some binding =>
      simp only [Context.reads, bound, Option.any_some, TypeBinding.offersRead, TypeBinding.hasRead,
        Bool.or_eq_false_iff, Option.isSome_eq_false_iff, Option.isNone_iff_eq_none] at passes
      rcases passes with ⟨⟨⟨noMethod, noGetter⟩, notTaken⟩, noLength⟩
      simp only [instanceMember?, noMethod, noGetter]
      rw [exec_bind_of_ok (exec_readArray_of_name noLength)]
      dsimp only
      rw [exec_bind_of_ok (exec_readItem_of_not_taken (wired.bindings type binding bound).itemGetter live fits notTaken)]

/-- A type that offers the name decides; the types behind it are not reached. -/
theorem exec_readAlong_of_reads (fits : world.context.fits host.system (.proxy proxy) type = true)
    (offers : world.context.reads host read name type = true) (rest : List TypeRef) :
    exec (host.readAlong host.invoke proxy read (.string name) (type :: rest)) world =
      exec (host.readAlong host.invoke proxy read (.string name) [type]) world := by
  rw [readAlong, readAlong, exec_bind_of_ok (exec_context world), exec_bind_of_ok (exec_context world)]
  cases bound : world.context.binding? type with
  | none =>
      rw [Context.reads, bound] at offers
      cases offers
  | some binding =>
      cases method : binding.slot? .methods name with
      | some slot => simp only [instanceMember?, method]
      | none =>
          cases getter : binding.slot? .getters name with
          | some slot => simp only [instanceMember?, method, getter]
          | none =>
              simp only [instanceMember?, method, getter]
              by_cases length : (type.isArray && read.asObject?.isSome && name == "Length") = true
              · simp only [Bool.and_eq_true, beq_iff_eq] at length
                rcases length with ⟨⟨isArray, isObject⟩, rfl⟩
                rcases exec_readArray_length isArray isObject world.store with ⟨length, gives⟩
                rw [exec_bind_of_ok (gives world rfl), exec_bind_of_ok (gives world rfl)]
              · have noLength := (Bool.not_eq_true _).mp length
                have taken : world.context.takesName host name (world.context.gettableItems binding) = true := by
                  simpa [Context.reads, bound, TypeBinding.offersRead, TypeBinding.hasRead, method, getter, noLength]
                    using offers
                rw [exec_bind_of_ok (exec_readArray_of_name noLength), exec_bind_of_ok (exec_readArray_of_name noLength)]
                dsimp only
                rw [exec_bind, exec_bind]
                cases run : exec (readItem host.invoke binding (.proxy proxy) (.string name)) world with
                | mk result after =>
                    cases result with
                    | error error => rfl
                    | ok found =>
                        cases found with
                        | some item => rfl
                        | none =>
                            exact absurd run
                              (exec_readItem_ne_none (wired.bindings type binding bound).itemGetter live fits taken)

/-- A read along a chain is a read from the first type that offers the name. -/
theorem exec_readAlong_eq_first {chain : List TypeRef}
    (fits : ∀ type ∈ chain, world.context.fits host.system (.proxy proxy) type = true) :
    exec (host.readAlong host.invoke proxy read (.string name) chain) world =
      exec (host.readFrom proxy read name (chain.find? (world.context.reads host read name))) world := by
  induction chain with
  | nil => rfl
  | cons type rest ih =>
      rcases List.forall_mem_cons.mp fits with ⟨first, others⟩
      cases offers : world.context.reads host read name type with
      | true =>
          rw [List.find?_cons_of_pos offers]
          exact exec_readAlong_of_reads wired live first offers rest
      | false =>
          rw [List.find?_cons_of_neg (Bool.eq_false_iff.mp offers), exec_readAlong_of_not_reads wired live first offers]
          exact ih others

/-- The first type of its chain that offers a name decides what is read from a live instance of a bound type. -/
theorem exec_index_eq_first (bound : world.context.isBound proxy.type = true) :
    exec (host.index (.proxy proxy) (.string name)) world = exec (host.readFrom proxy value name
      ((world.context.lookupChain host.system proxy.type).find? (world.context.reads host value name))) world := by
  rw [index, indexBy, indexInstance, exec_bind_of_ok (exec_liveValue_of_live live),
    exec_bind_of_ok (exec_ensureBound_of_isBound bound), exec_bind_of_ok (exec_context world)]
  exact exec_readAlong_eq_first wired live fun type above => Context.fits_of_lookupChain wired live bound above

end Reads

theorem exec_writeArray_of_name (value : HostValue) (type : TypeRef) (name : String) (item : ScriptValue)
    (world : World) : exec (host.writeArray value type (.string name) item) world = (.ok false, world) := by
  simp only [writeArray]
  split
  next impossible => cases impossible
  next => rfl

/-- An indexer that takes a key for a write takes the write, or fails. -/
theorem eq_true_of_taken (owner : TypeRef) (receiver : HostValue × ProxyKey) {key item : ScriptValue}
    (taken : ∃ property ∈ properties, property.setter.isSome = true ∧ ∃ index, keyType? property = some index ∧
      world.context.fits host.system key index = true) {results : List ScriptValue}
    (run : exec (host.setItemIn owner receiver key item properties) world = (.ok results, after)) :
    results = [.boolean true] := by
  induction properties with
  | nil =>
      rcases taken with ⟨_, listed, -⟩
      cases listed
  | cons property rest ih =>
      have behind := ((List.exists_mem_cons_iff _ _ _).mp taken).resolve_left
      rw [setItemIn] at run
      split at run
      next index setter takes sets =>
        rw [exec_bind_of_ok (exec_fits key index world)] at run
        cases fits : world.context.fits host.system key index with
        | true =>
            simp only [fits, if_true] at run
            rcases exec_bind_eq_ok run with ⟨_, _, -, run⟩
            split at run
            next => cases run
            next =>
              rcases exec_bind_eq_ok run with ⟨_, _, -, run⟩
              rcases exec_bind_eq_ok run with ⟨_, _, -, run⟩
              rcases exec_bind_eq_ok run with ⟨_, _, -, run⟩
              cases run
              rfl
        | false =>
            simp only [fits, Bool.false_eq_true, if_false] at run
            refine ih (behind ?_) run
            rintro ⟨-, other, otherTakes, otherFits⟩
            rw [← Option.some.inj (takes.symm.trans otherTakes), fits] at otherFits
            cases otherFits
      next noSetter =>
        refine ih (behind ?_) run
        rintro ⟨settable, index, takes, -⟩
        rcases Option.isSome_iff_exists.mp settable with ⟨setter, sets⟩
        exact noSetter _ _ takes sets

/-- An indexer that takes the name takes the write. -/
theorem exec_writeItem_ne_false {binding : TypeBinding}
    (wired : ∀ setter, binding.itemSetter = some setter →
      ∃ properties, Registered world.context.callables setter (.itemSetter type properties))
    (live : world.context.cache.resolve? proxy = some value)
    (fits : world.context.fits host.system (.proxy proxy) type = true)
    (taken : world.context.takesName host name (world.context.settableItems binding) = true) (item : ScriptValue) :
    exec (writeItem host.invoke binding (.proxy proxy) (.string name) item) world ≠ (.ok false, after) := by
  intro run
  simp only [writeItem] at run
  split at run
  next absent =>
    rw [Context.settableItems, absent] at taken
    cases taken
  next setter given =>
    rcases wired setter given with ⟨properties, registered⟩
    rw [Context.settableItems, given, Option.bind_some, show world.context.callable? setter = _ from registered,
      Context.takesName_eq_true_iff] at taken
    rcases exec_bind_eq_ok run with ⟨result, middle, called, refused⟩
    rcases exec_bind_eq_ok called with ⟨results, _, called, first⟩
    rw [exec_invoke_itemSetter live fits registered] at called
    have accepted : results = [.boolean true] := by
      refine eq_true_of_taken _ _ ?_ called
      rcases taken with ⟨property, listed, index, takes⟩
      exact ⟨property, (List.mem_filter.mp listed).1, (List.mem_filter.mp listed).2, index, takes⟩
    subst accepted
    cases first
    cases refused

section Writes

variable (wired : world.context.Wired host.system) (live : world.context.cache.resolve? proxy = some value)

include wired live

theorem exec_writeAlong_of_not_writes (fits : world.context.fits host.system (.proxy proxy) type = true)
    (passes : world.context.writes host name type = false) (rest : List TypeRef) (item : ScriptValue) :
    exec (host.writeAlong host.invoke proxy read (.string name) item (type :: rest)) world =
      exec (host.writeAlong host.invoke proxy read (.string name) item rest) world := by
  have alone : ∀ other ∈ [type], world.context.fits host.system (.proxy proxy) other = true :=
    List.forall_mem_singleton.mpr fits
  refine exec_writeAlong_append wired live alone (List.forall_mem_singleton.mpr fun binding bound => ?_) rest item
  simp only [Context.writes, bound, Option.any_some, TypeBinding.offersWrite, Bool.or_eq_false_iff,
    Option.isSome_eq_false_iff, Option.isNone_iff_eq_none] at passes
  refine ⟨fun _ same => ?_, fun _ _ => rfl, Context.not_takesName_iff.mp passes.2⟩
  rw [← ScriptValue.string.inj same]
  exact passes.1

theorem exec_writeAlong_of_writes (fits : world.context.fits host.system (.proxy proxy) type = true)
    (offers : world.context.writes host name type = true) (rest : List TypeRef) (item : ScriptValue) :
    exec (host.writeAlong host.invoke proxy read (.string name) item (type :: rest)) world =
      exec (host.writeAlong host.invoke proxy read (.string name) item [type]) world := by
  rw [writeAlong, writeAlong, exec_bind_of_ok (exec_context world), exec_bind_of_ok (exec_context world)]
  cases bound : world.context.binding? type with
  | none =>
      rw [Context.writes, bound] at offers
      cases offers
  | some binding =>
      simp only [ScriptValue.asString?, Option.bind_some]
      cases setter : binding.slot? .setters name with
      | some slot => rfl
      | none =>
          have taken : world.context.takesName host name (world.context.settableItems binding) = true := by
            simpa [Context.writes, bound, TypeBinding.offersWrite, setter] using offers
          dsimp only
          rw [exec_bind_of_ok (exec_writeArray_of_name ..), exec_bind_of_ok (exec_writeArray_of_name ..)]
          simp only [Bool.false_eq_true, if_false]
          rw [exec_bind, exec_bind]
          cases run : exec (writeItem host.invoke binding (.proxy proxy) (.string name) item) world with
          | mk result after =>
              cases result with
              | error error => rfl
              | ok accepted =>
                  cases accepted with
                  | true => rfl
                  | false =>
                      exact absurd run
                        (exec_writeItem_ne_false (wired.bindings type binding bound).itemSetter live fits taken item)

/-- A write along a chain is a write to the first type that offers the name. -/
theorem exec_writeAlong_eq_first {chain : List TypeRef}
    (fits : ∀ type ∈ chain, world.context.fits host.system (.proxy proxy) type = true) (item : ScriptValue) :
    exec (host.writeAlong host.invoke proxy read (.string name) item chain) world =
      exec (host.writeTo proxy read name item (chain.find? (world.context.writes host name))) world := by
  induction chain with
  | nil => rfl
  | cons type rest ih =>
      rcases List.forall_mem_cons.mp fits with ⟨first, others⟩
      cases offers : world.context.writes host name type with
      | true =>
          rw [List.find?_cons_of_pos offers]
          exact exec_writeAlong_of_writes wired live first offers rest item
      | false =>
          rw [List.find?_cons_of_neg (Bool.eq_false_iff.mp offers),
            exec_writeAlong_of_not_writes wired live first offers]
          exact ih others

/-- The first type of its chain that offers a name decides what becomes of a write to a live instance of a bound type. -/
theorem exec_assign_eq_first (bound : world.context.isBound proxy.type = true) (item : ScriptValue) :
    exec (host.assign (.proxy proxy) (.string name) item) world = exec (host.writeTo proxy value name item
      ((world.context.lookupChain host.system proxy.type).find? (world.context.writes host name))) world := by
  rw [assign, assignBy, assignInstance, exec_bind_of_ok (exec_liveValue_of_live live),
    exec_bind_of_ok (exec_ensureBound_of_isBound bound), exec_bind_of_ok (exec_context world)]
  exact exec_writeAlong_eq_first wired live (fun type above => Context.fits_of_lookupChain wired live bound above) item

end Writes

end Host

end ScriptBridge
