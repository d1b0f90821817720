import ScriptBridge.Proofs.Realms.Arguments
import ScriptBridge.Proofs.Realms.Unbinding

/-!
# Elements of arrays

A script reaches the elements of an array through the integer behind a key. An integer
that is a position of the array reads and writes the element there and nothing else; any
other integer is refused. The elements are shared by all proxies of the array, in every
context of the realm.
-/

namespace ScriptBridge

open Bridge

/-- A live proxy of an instance that goes by a bound type of arrays. -/
structure World.ShowsArray (world : World) (proxy : Proxy) (element : TypeRef) (reference : ObjectRef)
    (array : Instance HostValue) : Prop where
  live : world.context.cache.resolve? proxy = some (.object reference)
  stored : world.store.instance? reference = some array
  isArray : proxy.type = .array element
  bound : world.context.isBound proxy.type = true

/-- A value that can be handed out: it needs no proxy, or its run-time type is bound or can be. -/
def Host.CanHandOut (host : Host) (value : HostValue) (world : World) : Prop :=
  value.toScript?.isSome = true ∨ ∃ type, world.store.typeOf? value = some type ∧
    (exec (host.ensureBound type) world).1.isOk = true

/-- The write of an element, as what becomes of the instances. -/
structure HostStore.WritesElement (before : HostStore) (reference : ObjectRef) (array : Instance HostValue)
    (position : Nat) (value : HostValue) (after : HostStore) : Prop where
  statics : after.statics = before.statics
  others : ∀ other, other ≠ reference → after.instance? other = before.instance? other
  written : after.instance? reference = some { array with elements := array.elements.set position value }

namespace HostStore

variable {store : HostStore} {reference : ObjectRef} {array : Instance HostValue} {position : Nat}

theorem exists_writeElement? (stored : store.instance? reference = some array)
    (inside : position < array.elements.length) (value : HostValue) :
    ∃ after, store.writeElement? reference position value = some after ∧
      store.WritesElement reference array position value after := by
  refine ⟨store.replace reference { array with elements := array.elements.set position value }, ?_, rfl, ?_, ?_⟩
  · simp [writeElement?, stored, inside]
  · intro other different
    rw [instance?_replace, if_neg different]
  · rw [instance?_replace, if_pos rfl, stored, Option.map_some]

end HostStore

namespace Host

variable {host : Host} {world : World} {proxy : Proxy} {element : TypeRef} {reference : ObjectRef}
  {array : Instance HostValue} {key item : ScriptValue} {index : Int64}

theorem position?_eq_some_iff {length position : Nat} :
    position? length index = some position ↔ index.toInt = position ∧ position < length := by
  simp only [position?, Option.ite_none_right_eq_some, Option.some.injEq]
  omega

theorem position?_eq_none_iff {length : Nat} :
    position? length index = none ↔ ¬(0 ≤ index.toInt ∧ index.toInt < length) := by
  simp [position?]

/-- A key with an integer behind it is no text, so that it names no member. -/
theorem asString?_of_asInteger? (numeric : key.asInteger? = some index) : key.asString? = none := by
  cases key with
  | string text => cases numeric
  | _ => rfl

theorem instanceMember?_of_asInteger? (numeric : key.asInteger? = some index) (binding : TypeBinding) :
    instanceMember? binding key = none := by
  cases key with
  | string text => cases numeric
  | _ => rfl

/-- What an array gives for a key with an integer behind it. -/
theorem readArray_of_asInteger? (stored : world.store.instance? reference = some array)
    (numeric : key.asInteger? = some index) :
    exec (host.readArray (.object reference) (.array element) key) world =
      exec ((position? array.elements.length index).bind (array.elements[·]?) |>.elim
        (throw (outOfRange index))
        fun item => some <$> Bridge.asScript (host.push item)) world := by
  have noText : key ≠ .string "Length" := by
    rintro rfl
    cases numeric
  simp only [readArray, HostValue.asObject?, TypeRef.element?]
  rw [exec_bind_of_ok (exec_store world), stored, Option.map_some, Option.getD_some, if_neg noText, numeric]
  dsimp only
  cases (position? array.elements.length index).bind (array.elements[·]?) with
  | none => rfl
  | some item => rw [Option.elim_some, map_eq_pure_bind]

/-- An array refuses a value that does not fit its element type, wherever it would go. -/
theorem writeArray_of_misfit (numeric : key.asInteger? = some index)
    (misfit : ¬world.context.fits host.system item element = true) :
    exec (host.writeArray (.object reference) (.array element) key item) world =
      (.error (.typeMismatch (host.fullName (.array element) ++ "[" ++ intText index.toInt ++ "] Expected type " ++
        host.fullName element)), world) := by
  simp only [writeArray, HostValue.asObject?, TypeRef.element?, numeric]
  rw [exec_bind_of_ok (exec_fits item element world)]
  simp [misfit]

/-- An array refuses a position that it does not have. -/
theorem writeArray_of_outside (plain : host.system.PlainObject) (stored : world.store.instance? reference = some array)
    (numeric : key.asInteger? = some index) (fits : world.context.fits host.system item element = true)
    (outside : ¬(0 ≤ index.toInt ∧ index.toInt < array.elements.length)) :
    exec (host.writeArray (.object reference) (.array element) key item) world =
      (.error (outOfRange index), world) := by
  rcases Context.toHost_of_fits plain fits with ⟨converted, converts⟩
  have conversion : exec (host.toHost item element) world = (.ok converted, world) := by rw [exec_toHost, converts]
  simp only [writeArray, HostValue.asObject?, TypeRef.element?, numeric]
  rw [exec_bind_of_ok (exec_fits item element world)]
  simp only [fits, Bool.not_true, Bool.false_eq_true, if_false]
  rw [exec_bind_of_ok conversion, exec_bind_of_ok (exec_store world), stored, Option.map_some, Option.getD_some,
    position?_eq_none_iff.mpr outside]
  rfl

/-- What an array does not take leaves everything as it was. -/
theorem writeArray_of_refused (plain : host.system.PlainObject) (stored : world.store.instance? reference = some array)
    (numeric : key.asInteger? = some index)
    (refused : ¬((0 ≤ index.toInt ∧ index.toInt < array.elements.length) ∧
      world.context.fits host.system item element = true)) :
    ∃ error, exec (host.writeArray (.object reference) (.array element) key item) world = (.error error, world) := by
  by_cases fits : world.context.fits host.system item element = true
  · have outside : ¬(0 ≤ index.toInt ∧ index.toInt < array.elements.length) := fun inRange => refused ⟨inRange, fits⟩
    exact ⟨_, writeArray_of_outside plain stored numeric fits outside⟩
  · exact ⟨_, writeArray_of_misfit numeric fits⟩

/-- An array takes a value that fits at each of its positions, and writes the host value there. -/
theorem writeArray_of_inside (plain : host.system.PlainObject) (stored : world.store.instance? reference = some array)
    (numeric : key.asInteger? = some index) (fits : world.context.fits host.system item element = true)
    {position : Nat} (named : index.toInt = position) (inside : position < array.elements.length) :
    ∃ converted store, world.context.toHost host.system item element = .ok converted ∧
      world.store.WritesElement reference array position converted store ∧
      exec (host.writeArray (.object reference) (.array element) key item) world =
        (.ok true, { world with store := store }) := by
  rcases Context.toHost_of_fits plain fits with ⟨converted, converts⟩
  have conversion : exec (host.toHost item element) world = (.ok converted, world) := by rw [exec_toHost, converts]
  rcases HostStore.exists_writeElement? stored inside converted with ⟨store, wrote, writes⟩
  refine ⟨converted, store, converts, writes, ?_⟩
  simp only [writeArray, HostValue.asObject?, TypeRef.element?, numeric]
  rw [exec_bind_of_ok (exec_fits item element world)]
  simp only [fits, Bool.not_true, Bool.false_eq_true, if_false]
  rw [exec_bind_of_ok conversion, exec_bind_of_ok (exec_store world), stored, Option.map_some, Option.getD_some,
    position?_eq_some_iff.mpr ⟨named, inside⟩, Option.bind_some, wrote]
  rfl

theorem isOk_push_iff {value : HostValue} :
    (exec (host.push value) world).1.isOk = true ↔ host.CanHandOut value world := by
  unfold push pushBy CanHandOut ensureBound
  cases value.toScript? with
  | some simple => simp [Except.isOk, Except.toBool]
  | none =>
      rw [exec_bind_of_ok (exec_store world)]
      cases world.store.typeOf? value with
      | none => simp [Except.isOk, Except.toBool]
      | some type =>
          dsimp only
          rw [exec_bind]
          cases run : exec (ensureBoundBy host.bindWith type) world with
          | mk result after =>
              cases result with
              | error error => simp [run, Except.isOk, Except.toBool]
              | ok done => simp [run, Except.isOk, Except.toBool, exec_map, exec_represent, Except.map]

end Host

namespace World.ShowsArray

variable {host : Host} {world : World} {proxy : Proxy} {element : TypeRef} {reference : ObjectRef}
  {array : Instance HostValue} {key item : ScriptValue} {index : Int64}

/-- A read of an element does not go beyond the type of the array. -/
theorem exec_index (shows : world.ShowsArray proxy element reference array) (numeric : key.asInteger? = some index) :
    exec (host.index (.proxy proxy) key) world =
      exec ((Host.position? array.elements.length index).bind (array.elements[·]?) |>.elim
        (throw (Host.outOfRange index))
        fun item => Bridge.asScript (host.push item)) world := by
  rcases Option.isSome_iff_exists.mp shows.bound with ⟨binding, bound⟩
  rw [Host.index, Host.indexBy, Host.indexInstance, exec_bind_of_ok (Host.exec_liveValue_of_live shows.live),
    exec_bind_of_ok (Host.exec_ensureBound_of_isBound shows.bound), exec_bind_of_ok (exec_context world),
    Context.lookupChain, Host.readAlong, exec_bind_of_ok (exec_context world), bound]
  simp only [Host.instanceMember?_of_asInteger? numeric]
  rw [shows.isArray, exec_bind, Host.readArray_of_asInteger? shows.stored numeric]
  cases (Host.position? array.elements.length index).bind (array.elements[·]?) with
  | none => rfl
  | some item =>
      rw [Option.elim_some, Option.elim_some, exec_map]
      cases exec (Bridge.asScript (host.push item)) world with
      | mk result after => cases result <;> rfl

/-- A write of an element that the array takes or refuses does not go beyond the type of the array. -/
theorem exec_assign (shows : world.ShowsArray proxy element reference array) (numeric : key.asInteger? = some index)
    {result : Except ScriptError Bool} {after : World}
    (run : exec (host.writeArray (.object reference) (.array element) key item) world = (result, after))
    (handled : result ≠ .ok false) :
    exec (host.assign (.proxy proxy) key item) world = (result.map fun _ => (), after) := by
  rcases Option.isSome_iff_exists.mp shows.bound with ⟨binding, bound⟩
  rw [Host.assign, Host.assignBy, Host.assignInstance, exec_bind_of_ok (Host.exec_liveValue_of_live shows.live),
    exec_bind_of_ok (Host.exec_ensureBound_of_isBound shows.bound), exec_bind_of_ok (exec_context world),
    Context.lookupChain, Host.writeAlong, exec_bind_of_ok (exec_context world), bound]
  simp only [Host.asString?_of_asInteger? numeric, Option.bind_none]
  rw [shows.isArray, exec_bind, run]
  cases result with
  | error error => rfl
  | ok taken =>
      cases taken with
      | true => rfl
      | false => exact absurd rfl handled

/-- What a read gives at a position of the array is its element, handed out. -/
theorem exec_index_of_inside (shows : world.ShowsArray proxy element reference array)
    (numeric : key.asInteger? = some index) {position : Nat} (named : index.toInt = position) {found : HostValue}
    (present : array.elements[position]? = some found) :
    exec (host.index (.proxy proxy) key) world = exec (Bridge.asScript (host.push found)) world := by
  have inside := (List.getElem?_eq_some_iff.mp present).1
  rw [shows.exec_index numeric, Host.position?_eq_some_iff.mpr ⟨named, inside⟩, Option.bind_some, present,
    Option.elim_some]

theorem exec_index_of_outside (shows : world.ShowsArray proxy element reference array)
    (numeric : key.asInteger? = some index) (outside : ¬(0 ≤ index.toInt ∧ index.toInt < array.elements.length)) :
    exec (host.index (.proxy proxy) key) world = (.error (Host.outOfRange index), world) := by
  rw [shows.exec_index numeric, Host.position?_eq_none_iff.mpr outside]
  rfl

/-- A proxy of an array shows the array that is there after a write of an element. -/
theorem of_writesElement {store : HostStore} {position : Nat} {value : HostValue}
    (shows : world.ShowsArray proxy element reference array)
    (writes : world.store.WritesElement reference array position value store) :
    ({ world with store := store } : World).ShowsArray proxy element reference
      { array with elements := array.elements.set position value } :=
  ⟨shows.live, writes.written, shows.isArray, shows.bound⟩

end World.ShowsArray

namespace Realm

variable {realm : Realm} {place : Nat} {context : Context}

/-- What becomes of a realm in which a context writes: the store and the context are those that the write leaves. -/
theorem act_assign (present : realm.contexts[place]? = some context) (target key item : ScriptValue)
    {result : Except ScriptError Unit} {store : HostStore}
    (run : exec (realm.host.assign target key item) ⟨realm.store, context, []⟩ = (result, ⟨store, context, []⟩)) :
    realm.act (.perform place (.assign target key item)) = { realm with store := store } := by
  have unchanged : realm.contexts.setIfInBounds place context = realm.contexts := by
    refine Array.ext_getElem? fun other => ?_
    rw [Array.getElem?_setIfInBounds]
    split
    next same => rw [← same, present, if_pos (Array.getElem?_eq_some_iff.mp present).1]
    next => rfl
  rw [act_perform present, Host.perform, Host.answerScript, exec_map, exec_adapt, run]
  dsimp only
  rw [unchanged]

/--
Arrays are exact at their bounds, and what is done to an element is done to no other. In every run, for a live proxy of
an array by its bound type and a key with an integer behind it: a read gives the element that the integer is the position
of, handed out, which fails only if the type of the element cannot be bound; any other integer is refused, and nothing
changes. A write succeeds exactly if the integer is a position of the array and the value fits the element type. It then
puts the host value at that position and changes nothing else in the realm, and reads through all proxies of the array, in
all contexts, give what is in the array now. A write that fails leaves the realm as it was.
-/
theorem arrays_exact (actions : List Action) (place : Nat) (context : Context)
    (present : (core.actAll actions).contexts[place]? = some context) (proxy : Proxy) (element : TypeRef)
    (reference : ObjectRef) (array : Instance HostValue)
    (shows : (⟨(core.actAll actions).store, context, []⟩ : World).ShowsArray proxy element reference array)
    (key : ScriptValue) (index : Int64) (numeric : key.asInteger? = some index) :
    let realm := core.actAll actions
    let host := realm.host
    let start : World := ⟨realm.store, context, []⟩
    (∀ (position : Nat) found, index.toInt = position → array.elements[position]? = some found →
      exec (host.index (.proxy proxy) key) start = exec (Bridge.asScript (host.push found)) start ∧
      ((exec (host.index (.proxy proxy) key) start).1.isOk = true ↔ host.CanHandOut found start)) ∧
    (¬(0 ≤ index.toInt ∧ index.toInt < array.elements.length) →
      exec (host.index (.proxy proxy) key) start =
        (.error (.runtime ("index " ++ intText index.toInt ++ " out of range")), start)) ∧
    ∀ item,
      let later := realm.act (.perform place (.assign (.proxy proxy) key item))
      ((exec (host.assign (.proxy proxy) key item) start).1.isOk = true ↔
        (0 ≤ index.toInt ∧ index.toInt < array.elements.length) ∧ context.fits host.system item element = true) ∧
      ((exec (host.assign (.proxy proxy) key item) start).1.isOk = false → later = realm) ∧
      ((exec (host.assign (.proxy proxy) key item) start).1.isOk = true →
        ∃ (position : Nat) (converted : HostValue), index.toInt = position ∧
          context.toHost host.system item element = .ok converted ∧
          later = { realm with store := later.store } ∧
          realm.store.WritesElement reference array position converted later.store ∧
          ∀ (viewer : Nat) (viewing : Context) (other : Proxy) (seenAs : TypeRef),
            realm.contexts[viewer]? = some viewing →
            (⟨realm.store, viewing, []⟩ : World).ShowsArray other seenAs reference array →
            ∀ (otherKey : ScriptValue) (otherIndex : Int64) (otherPosition : Nat) (found : HostValue),
              otherKey.asInteger? = some otherIndex → otherIndex.toInt = otherPosition →
              (array.elements.set position converted)[otherPosition]? = some found →
              exec (host.index (.proxy other) otherKey) ⟨later.store, viewing, []⟩ =
                exec (Bridge.asScript (host.push found)) ⟨later.store, viewing, []⟩) := by
  intro realm host start
  have plain : host.system.PlainObject := plainObject_actAll actions
  refine ⟨fun position found named stored => ?_, fun outside => shows.exec_index_of_outside numeric outside,
    fun item => ?_⟩
  · have read : exec (host.index (.proxy proxy) key) start = exec (Bridge.asScript (host.push found)) start :=
      shows.exec_index_of_inside numeric named stored
    refine ⟨read, ?_⟩
    rw [read, ← Host.isOk_push_iff, Bridge.asScript, exec_adapt]
    cases (exec (host.push found) start).1 <;> rfl
  intro later
  by_cases accepted : (0 ≤ index.toInt ∧ index.toInt < array.elements.length) ∧
      context.fits host.system item element = true
  · rcases Int.eq_ofNat_of_zero_le accepted.1.1 with ⟨position, named⟩
    have inside : position < array.elements.length := by omega
    rcases Host.writeArray_of_inside plain shows.stored numeric accepted.2 named inside with
      ⟨converted, store, converts, writes, run⟩
    have assigned := shows.exec_assign numeric run (by simp)
    have reached : later = { realm with store := store } := act_assign present _ _ _ assigned
    rw [assigned, reached]
    refine ⟨iff_of_true rfl accepted, fun failed => ?_, fun _ => ⟨position, converted, named, converts, rfl, writes, ?_⟩⟩
    · cases failed
    · intro viewer viewing other seenAs _ alsoShows otherKey otherIndex otherPosition found numericToo namedToo stored
      exact (alsoShows.of_writesElement writes).exec_index_of_inside numericToo namedToo stored
  · rcases Host.writeArray_of_refused plain shows.stored numeric accepted with ⟨error, run⟩
    have assigned := shows.exec_assign numeric run (by simp)
    have reached : later = realm := act_assign present _ _ _ assigned
    rw [assigned]
    refine ⟨iff_of_false (fun succeeded => ?_) accepted, fun _ => reached, fun succeeded => ?_⟩
    · cases succeeded
    · cases succeeded

/-- An array of two integers is made and handed to a script. -/
def numbersHanded : List Action :=
  [.make (.array .int32 [.existing (.int32 4), .existing (.int32 5)]), .openContext .standard,
    .perform 0 (.push (.object ⟨0⟩))]

def numbersProxy : Proxy := ⟨⟨4, 0⟩, .array .int32, ⟨1⟩⟩

/-- The script has the array of two integers, and nine can be an element of it. -/
def HasNumbers (realm : Realm) (context : Context) : Prop :=
  (context.cache.resolve? numbersProxy).bind HostValue.asObject? = some ⟨0⟩ ∧
    (realm.store.instance? ⟨0⟩).map (fun array => array.elements.map HostValue.asInt64?) = some [some 4, some 5] ∧
    context.isBound (.array .int32) = true ∧ context.fits realm.host.system (.integer 9) .int32 = true

instance (realm : Realm) (context : Context) : Decidable (HasNumbers realm context) :=
  inferInstanceAs (Decidable (_ ∧ _ ∧ _ ∧ _))

theorem HasNumbers.showsArray (has : HasNumbers realm context) :
    ∃ array, (⟨realm.store, context, []⟩ : World).ShowsArray numbersProxy .int32 ⟨0⟩ array ∧
      array.elements.length = 2 ∧ ∃ second, array.elements[1]? = some second ∧ second.asInt64? = some 5 := by
  rcases has with ⟨stands, stored, bound, -⟩
  rcases Option.map_eq_some_iff.mp stored with ⟨array, there, integers⟩
  have counted : (array.elements.map HostValue.asInt64?).length = 2 := by rw [integers]; rfl
  have later : (array.elements.map HostValue.asInt64?)[1]? = some (some 5) := by rw [integers]; rfl
  rw [List.getElem?_map] at later
  rw [List.length_map] at counted
  exact ⟨array, ⟨resolve?_of_asObject? stands, there, rfl, bound⟩, counted, Option.map_eq_some_iff.mp later⟩

/-- The script reads the second integer of the array, is refused what is before the first, and can write the second. -/
theorem arrays_exact_numbersHanded :
    let host := (core.actAll numbersHanded).host
    ∃ context, (core.actAll numbersHanded).contexts[0]? = some context ∧
      let start : World := ⟨(core.actAll numbersHanded).store, context, []⟩
      (∃ second, second.asInt64? = some 5 ∧ exec (host.index (.proxy numbersProxy) (.integer 1)) start =
        exec (Bridge.asScript (host.push second)) start) ∧
      exec (host.index (.proxy numbersProxy) (.integer (-1))) start =
        (.error (.runtime ("index " ++ intText (-1) ++ " out of range")), start) ∧
      (exec (host.assign (.proxy numbersProxy) (.integer 1) (.integer 9)) start).1.isOk = true := by
  intro host
  have reached : (core.actAll numbersHanded).contexts[0]?.any (HasNumbers (core.actAll numbersHanded)) := by
    decide +kernel
  rcases Option.any_eq_true _ _ |>.mp reached with ⟨context, present, checked⟩
  have has := of_decide_eq_true checked
  rcases has.showsArray with ⟨array, shows, two, second, stored, five⟩
  have one : (1 : Int64).toInt = 1 := by decide
  have minusOne : (-1 : Int64).toInt = -1 := by decide
  rcases arrays_exact numbersHanded 0 context present numbersProxy .int32 ⟨0⟩ array shows (.integer 1) 1 rfl with
    ⟨read, -, write⟩
  rcases arrays_exact numbersHanded 0 context present numbersProxy .int32 ⟨0⟩ array shows (.integer (-1)) (-1) rfl with
    ⟨-, refuse, -⟩
  refine ⟨context, present, ⟨second, five, (read 1 second one stored).1⟩, ?_, ?_⟩
  · rw [refuse (by omega), minusOne]
  · exact (write (.integer 9)).1.mpr ⟨by omega, has.2.2.2⟩

end Realm

end ScriptBridge
