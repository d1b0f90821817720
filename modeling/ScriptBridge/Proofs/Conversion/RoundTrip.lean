import ScriptBridge.Proofs.Conversion.Soundness
import ScriptBridge.Proofs.Number.Exact
import ScriptBridge.Proofs.Steps.Typing
import ScriptBridge.Proofs.Tables.Entries

/-!
# Values that come back

A value that is handed to a script fits its run-time type, and converting it back
to that type gives the value again. Simple values are compared case by case; for
the others it rests on the proxies of a context standing for just the values
that they were made for.
-/

namespace ScriptBridge

/-- The value comes back as it was, but for the payload of a NaN. -/
inductive HostValue.ComesBackAs : HostValue → HostValue → Prop
  | same (value : HostValue) : ComesBackAs value value
  | notNumber (value back : Binary32) (isNaN : value.isNaN = true) (stays : back.isNaN = true) :
      ComesBackAs (.single value) (.single back)

/-- The proxy of a value stands for just this value. -/
theorem IdentityCache.Faithful.resolve?_represent {cache : IdentityCache} (faithful : cache.Faithful)
    (consistent : cache.Consistent) (value : HostValue) (type : TypeRef) :
    (cache.represent value type).2.resolve? (cache.represent value type).1 = some value := by
  have later := faithful.represent consistent value type
  rcases consistent.represents value type with ⟨own, entry, live, identity, without⟩
  have same : entry.value = value := by
    cases known : Identity.of? value with
    | none => exact without known
    | some named => exact Identity.eq_of_of? ((later _ _ live).symm.trans (identity.trans known)) known
  rw [resolve?, if_pos own, get?, live, Option.map_some, same]

theorem charOfCode?_toNat (character : Char) : charOfCode? (Int64.ofNat character.toNat) = some character := by
  have small : character.toNat < UInt32.size := character.val.toNat_lt
  have exact : (Int64.ofNat character.toNat).toInt = character.toNat :=
    Int64.toInt_ofNat_of_lt (Nat.lt_trans small (by decide))
  have code : character.toNat.toUInt32 = character.val := UInt32.ofNat_toNat
  rw [charOfCode?, exact, if_pos ⟨by omega, by omega⟩]
  simp only [Int.toNat_natCast, code, dif_pos character.valid]

theorem narrowInt64?_toInt64 (value : Int32) : narrowInt64? value.toInt64 = some value := by
  rw [narrowInt64?, Int32.toInt_toInt64, if_pos ⟨value.minValue_le_toInt, value.toInt_le⟩, Int32.toInt32_toInt64]

theorem CallableHandle.target_of_ofTarget? {target : UInt64} {handle : CallableHandle}
    (known : ofTarget? target = some handle) : handle.target = target := by
  rw [ofTarget?] at known
  split at known
  next small =>
    rcases Option.some.inj known with rfl
    apply UInt64.toNat.inj
    rw [CallableHandle.target, UInt32.toNat_toUInt64, UInt64.toNat_toUInt32, Nat.mod_eq_of_lt small]
  next => cases known

/-- A single comes back from the double that it is handed out as. -/
theorem Binary32.comesBack_narrow_widen (number : Binary32) :
    (HostValue.single number).ComesBackAs (.single number.widen.narrow) := by
  cases isNaN : number.isNaN with
  | false =>
      rw [narrow_widen isNaN]
      exact .same _
  | true => exact .notNumber _ _ isNaN (isNaN_narrow_widen isNaN)

/-- The core type of a kind is primitive of that kind, and no enumeration. -/
theorem TypeSystem.Standard.primitive {system : TypeSystem} (standard : system.Standard) (kind : PrimitiveKind)
    (type : TypeRef) (same : kind.type = type) :
    (system.definition type).primitive? = some kind ∧ (system.definition type).isEnumeration = false := by
  subst same
  have known : (system.definition kind.type).primitive? = some kind := by
    cases kind <;> exact (congrArg TypeDef.primitive? (standard.definition_core (by decide))).trans rfl
  exact ⟨known, TypeDef.isEnumeration_of_primitive? known⟩

namespace Context

variable {system : TypeSystem} {context : Context} {store : HostStore} {type : TypeRef}

/-- A script value fits a type and is converted to what comes back of a value. -/
def GivesBack (system : TypeSystem) (context : Context) (value : HostValue) (type : TypeRef)
    (pushed : ScriptValue) : Prop :=
  (context.compatibility system pushed type).isSome = true ∧
    ∃ back, context.toHost system pushed type = .ok back ∧ value.ComesBackAs back

theorem givesBack_proxy {proxy : Proxy} {value : HostValue} (resolved : context.cache.resolve? proxy = some value)
    (dispatch : proxy.type = type) : context.GivesBack system value type (.proxy proxy) := by
  have owned : context.cache.owns proxy = true := by rw [IdentityCache.owns, resolved]; rfl
  have live : context.cache.isReleased proxy = false := by simp [IdentityCache.isReleased, owned]
  refine ⟨?_, value, by simp [toHost, live, resolved], .same value⟩
  rw [compatibility]
  split
  next => simp [objectCompatibility, live, owned]
  next => simp [proxyCompatibility, live, owned, dispatch]

theorem givesBack_integer {number : Int64} {value : HostValue} (different : type ≠ .object)
    (fits : (integerCompatibility system number type).isSome = true)
    (made : numericHost? system (.integer number) type = some value) :
    context.GivesBack system value type (.integer number) := by
  refine ⟨?_, value, by simp [toHost, made], .same value⟩
  unfold compatibility
  rwa [if_neg different]

theorem givesBack_number {number : Binary64} {value back : HostValue} (different : type ≠ .object)
    (fits : (numberCompatibility system number type).isSome = true)
    (made : numericHost? system (.number number) type = some back) (comesBack : value.ComesBackAs back) :
    context.GivesBack system value type (.number number) := by
  refine ⟨?_, back, by simp [toHost, made], comesBack⟩
  unfold compatibility
  rwa [if_neg different]

/-- A delegate with one target that is a callable comes back as a function. -/
theorem givesBack_function {target : UInt64} {handle : CallableHandle}
    (callable : (system.definition type).isDelegate = true ∨ type = .delegate)
    (made : CallableHandle.ofTarget? target = some handle) :
    context.GivesBack system (.delegate ⟨type, [target]⟩) type (.function handle) := by
  refine ⟨?_, .delegate ⟨type, [target]⟩, ?_, .same _⟩
  · unfold compatibility
    split
    next => rfl
    next => simp [callable]
  · rw [toHost, CallableHandle.target_of_ofTarget? made]
    rcases callable with isDelegate | rfl
    · rw [if_pos isDelegate]
    · simp

/-- What is handed out for a value without a proxy gives it back. -/
theorem givesBack_simple (standard : system.Standard) {value : HostValue} {simple : ScriptValue}
    (delegates : ∀ delegate, value = .delegate delegate →
      (system.definition delegate.type).isDelegate = true ∨ delegate.type = .delegate)
    (known : value.toScript? = some simple) (typed : store.typeOf? value = some type) :
    context.GivesBack system value type simple := by
  cases value with
  | null => cases typed
  | boolean truth =>
      cases known
      cases typed
      rcases standard.primitive .boolean .boolean rfl with ⟨kind, -⟩
      refine ⟨?_, .boolean truth, rfl, .same _⟩
      unfold compatibility
      rw [if_neg (by decide)]
      simp [kind]
  | char character =>
      cases known
      cases typed
      rcases standard.primitive .char .char rfl with ⟨kind, other⟩
      refine givesBack_integer (by decide) ?_ ?_
      · simp [integerCompatibility, kind, charOfCode?_toNat]
      · simp [numericHost?, kind, other, ScriptValue.asInteger?, charOfCode?_toNat]
  | int32 number =>
      cases known
      cases typed
      rcases standard.primitive .int32 .int32 rfl with ⟨kind, other⟩
      refine givesBack_integer (by decide) ?_ ?_
      · simp [integerCompatibility, kind, narrowInt64?_toInt64]
      · simp [numericHost?, kind, other, ScriptValue.asInteger?, narrowInt64?_toInt64]
  | int64 number =>
      cases known
      cases typed
      rcases standard.primitive .int64 .int64 rfl with ⟨kind, other⟩
      refine givesBack_integer (by decide) ?_ ?_
      · simp [integerCompatibility, kind]
      · simp [numericHost?, kind, other, ScriptValue.asInteger?]
  | single number =>
      cases known
      cases typed
      rcases standard.primitive .single .single rfl with ⟨kind, other⟩
      refine givesBack_number (by decide) ?_ ?_ number.comesBack_narrow_widen
      · simp [numberCompatibility, kind]
      · simp [numericHost?, kind, other, ScriptValue.asNumber?]
  | double number =>
      cases known
      cases typed
      rcases standard.primitive .double .double rfl with ⟨kind, other⟩
      refine givesBack_number (by decide) ?_ ?_ (.same _)
      · simp [numberCompatibility, kind]
      · simp [numericHost?, kind, other, ScriptValue.asNumber?]
  | string text =>
      cases known
      cases typed
      rcases standard.primitive .string .string rfl with ⟨kind, other⟩
      refine ⟨?_, .string text, ?_, .same _⟩
      · unfold compatibility
        rw [if_neg (by decide)]
        simp [stringCompatibility, kind]
      · simp [toHost, textHost?, kind, other]
  | delegate delegate =>
      rcases delegate with ⟨owner, targets⟩
      rcases targets with _ | ⟨target, _ | ⟨second, rest⟩⟩
      · cases known
      · rcases Option.map_eq_some_iff.mp known with ⟨handle, made, rfl⟩
        cases typed
        exact givesBack_function (delegates _ rfl) made
      · cases known
  | object reference => cases known
  | copied copy => cases known
  | enumeration owner number => cases known
  | type named => cases known

end Context

end ScriptBridge
