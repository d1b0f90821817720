import ScriptBridge.Proofs.Steps.Typing

/-!
# Soundness of the compatibility test

A script value that is found to fit a type has a host value, and a slot of the
type can hold it. For simple values this is a comparison of two case analyses;
for proxies it rests on their dispatch types being run-time types.
-/

namespace ScriptBridge

/-- The type of the values of a kind. -/
def PrimitiveKind.type : PrimitiveKind → TypeRef
  | .boolean => .boolean
  | .char => .char
  | .int32 => .int32
  | .int64 => .int64
  | .single => .single
  | .double => .double
  | .string => .string

theorem TypeDef.isEnumeration_of_primitive? {definition : TypeDef} {kind : PrimitiveKind}
    (primitive : definition.primitive? = some kind) : definition.isEnumeration = false := by
  simp only [primitive?] at primitive
  simp only [isEnumeration]
  split at primitive
  next isPrimitive => rw [isPrimitive]
  next => cases primitive

theorem TypeDef.enumValue?_of_not_enumeration {definition : TypeDef}
    (other : definition.isEnumeration = false)
    (member : String) : definition.enumValue? member = none := by
  simp only [isEnumeration] at other
  simp only [enumValue?, enumMembers]
  split at other
  next => cases other
  next => rfl

namespace TypeSystem

/-- The core types are as every type system starts with, and no other type is primitive. -/
structure Standard (system : TypeSystem) : Prop where
  core : ∀ index < TypeRef.coreCount, system.types[index]? = coreTypes[index]?
  built : ∀ index definition, TypeRef.coreCount ≤ index → system.types[index]? = some definition →
    definition.primitive? = none

variable {system : TypeSystem}

theorem standard_core : core.Standard where
  core := fun _ _ => rfl
  built := by
    intro index definition beyond found
    have bound := (List.getElem?_eq_some_iff.mp found).1
    have count : TypeSystem.core.types.length = TypeRef.coreCount := rfl
    omega

theorem Standard.declare? (standard : system.Standard) {definition : TypeDef} {type : TypeRef}
    {extended : TypeSystem} (notPrimitive : definition.primitive? = none)
    (declared : system.declare? definition = some (type, extended)) : extended.Standard := by
  have enough := system.starts_with_core
  rw [TypeSystem.declare?] at declared
  split at declared
  next =>
    rcases Prod.mk.inj (Option.some.inj declared) with ⟨-, rfl⟩
    refine ⟨?_, ?_⟩
    · intro index bound
      rw [← standard.core index bound]
      exact List.getElem?_append_left (by omega)
    · intro index found beyond present
      by_cases earlier : index < system.types.length
      · rw [List.getElem?_append_left earlier] at present
        exact standard.built index found beyond present
      · rw [List.getElem?_append_right (by omega), List.getElem?_singleton] at present
        split at present
        · rw [← Option.some.inj present]
          exact notPrimitive
        · cases present
  next => cases declared

theorem Standard.definition_core (standard : system.Standard) {index : Nat}
    (bound : index < TypeRef.coreCount) :
    system.definition (.declared index) = (coreTypes[index]?).getD default := by
  rw [definition, standard.core index bound]

theorem Standard.definition_object (standard : system.Standard) :
    system.definition .object = TypeDef.named "System" "Object" .reference :=
  standard.definition_core (by decide)

/-- Only the type of a kind is primitive of that kind. -/
theorem Standard.eq_of_primitive? (standard : system.Standard) {type : TypeRef} {kind : PrimitiveKind}
    (primitive : (system.definition type).primitive? = some kind) : type = kind.type := by
  cases type with
  | array element => cases primitive
  | declared index =>
      by_cases bound : index < TypeRef.coreCount
      · have table : ∀ index < TypeRef.coreCount,
            ∀ kind ∈ ((coreTypes[index]?).getD default).primitive?,
              TypeRef.declared index = kind.type := by
          decide
        rw [standard.definition_core bound] at primitive
        exact table index bound kind primitive
      · rw [definition] at primitive
        cases found : system.types[index]? with
        | none =>
            rw [found] at primitive
            cases primitive
        | some definition =>
            rw [found, Option.getD_some, standard.built index definition (by omega) found] at primitive
            cases primitive

/-- A slot of a type can hold a value. -/
structure Holds (system : TypeSystem) (store : HostStore) (type : TypeRef) (value : HostValue) : Prop where
  null : value = .null → (system.definition type).isValueType = false
  typed : value ≠ .null → system.isAssignable ((store.typeOf? value).getD .object) type = true

theorem isAssignable_self (type : TypeRef) : system.isAssignable type type = true := by
  unfold isAssignable
  simp [isDirectlyAssignable, isSameOrSubclass, lineage]

theorem isAssignable_object (type : TypeRef) : system.isAssignable type .object = true := by
  unfold isAssignable
  simp [isDirectlyAssignable]

theorem Standard.isValueType_object (standard : system.Standard) :
    (system.definition .object).isValueType = false := by
  rw [standard.definition_object]
  rfl

variable {store : HostStore} {type : TypeRef}

theorem holds_null (reference : (system.definition type).isValueType = false) : system.Holds store type .null :=
  ⟨fun _ => reference, fun present => (present rfl).elim⟩

theorem holds_of_typeOf? {value : HostValue} (typed : store.typeOf? value = some type) :
    system.Holds store type value where
  null := by
    rintro rfl
    cases typed
  typed := by
    intro _
    rw [typed]
    exact isAssignable_self type

theorem Standard.holds_object (standard : system.Standard) (value : HostValue) :
    system.Holds store .object value :=
  ⟨fun _ => standard.isValueType_object, fun _ => isAssignable_object _⟩

end TypeSystem

namespace Context

variable {system : TypeSystem} {context : Context} {store : HostStore} {type : TypeRef} {tier : Tier}

/-- A value has a host value for a slot of a type, and the slot can hold that. -/
def Converts (system : TypeSystem) (context : Context) (store : HostStore) (value : ScriptValue)
    (type : TypeRef) : Prop :=
  ∃ host, context.toHost system value type = .ok host ∧ system.Holds store type host

theorem converts_integer (standard : system.Standard) {value : Int64}
    (fits : integerCompatibility system value type = some tier) :
    context.Converts system store (.integer value) type := by
  simp only [integerCompatibility] at fits
  cases primitive : (system.definition type).primitive? with
  | none =>
      simp only [primitive, Option.ite_none_right_eq_some] at fits
      exact ⟨.enumeration type value,
        by simp [toHost, numericHost?, fits.1, ScriptValue.asInteger?], TypeSystem.holds_of_typeOf? rfl⟩
  | some kind =>
      have other := TypeDef.isEnumeration_of_primitive? primitive
      rcases standard.eq_of_primitive? primitive with rfl
      cases kind with
      | boolean => simp [primitive, other] at fits
      | string => simp [primitive, other] at fits
      | int64 =>
          exact ⟨.int64 value,
            by simp [toHost, numericHost?, other, primitive, ScriptValue.asInteger?],
            TypeSystem.holds_of_typeOf? rfl⟩
      | int32 =>
          simp only [primitive, Option.map_eq_some_iff] at fits
          rcases fits with ⟨narrow, narrowed, -⟩
          exact ⟨.int32 narrow,
            by simp [toHost, numericHost?, other, primitive, ScriptValue.asInteger?, narrowed],
            TypeSystem.holds_of_typeOf? rfl⟩
      | char =>
          simp only [primitive, Option.map_eq_some_iff] at fits
          rcases fits with ⟨character, named, -⟩
          exact ⟨.char character,
            by simp [toHost, numericHost?, other, primitive, ScriptValue.asInteger?, named],
            TypeSystem.holds_of_typeOf? rfl⟩
      | single =>
          exact ⟨.single (Binary64.ofInt value.toInt).narrow,
            by simp [toHost, numericHost?, other, primitive, ScriptValue.asNumber?],
            TypeSystem.holds_of_typeOf? rfl⟩
      | double =>
          exact ⟨.double (.ofInt value.toInt),
            by simp [toHost, numericHost?, other, primitive, ScriptValue.asNumber?],
            TypeSystem.holds_of_typeOf? rfl⟩

theorem converts_number (standard : system.Standard) {value : Binary64}
    (fits : numberCompatibility system value type = some tier) :
    context.Converts system store (.number value) type := by
  simp only [numberCompatibility] at fits
  cases primitive : (system.definition type).primitive? with
  | none =>
      simp only [primitive, Option.ite_none_right_eq_some, Bool.and_eq_true] at fits
      rcases fits with ⟨⟨enumeration, integral⟩, -⟩
      rcases Option.isSome_iff_exists.mp integral with ⟨whole, decoded⟩
      have integer : value.toInt64? = some (saturateInt64 whole) := by
        rw [Binary64.toInt64?, decoded, Option.map_some]
      exact ⟨.enumeration type (saturateInt64 whole),
        by simp [toHost, numericHost?, enumeration, ScriptValue.asInteger?, integer],
        TypeSystem.holds_of_typeOf? rfl⟩
  | some kind =>
      have other := TypeDef.isEnumeration_of_primitive? primitive
      rcases standard.eq_of_primitive? primitive with rfl
      cases kind with
      | boolean => simp [primitive, other] at fits
      | string => simp [primitive, other] at fits
      | char => simp [primitive, other] at fits
      | int64 =>
          simp only [primitive, Option.map_eq_some_iff] at fits
          rcases fits with ⟨integer, whole, -⟩
          exact ⟨.int64 integer,
            by simp [toHost, numericHost?, other, primitive, ScriptValue.asInteger?, whole],
            TypeSystem.holds_of_typeOf? rfl⟩
      | int32 =>
          simp only [primitive, Option.map_eq_some_iff, Option.bind_eq_some_iff] at fits
          rcases fits with ⟨narrow, ⟨integer, whole, narrowed⟩, -⟩
          exact ⟨.int32 narrow,
            by simp [toHost, numericHost?, other, primitive, ScriptValue.asInteger?, whole, narrowed],
            TypeSystem.holds_of_typeOf? rfl⟩
      | single =>
          exact ⟨.single value.narrow,
            by simp [toHost, numericHost?, other, primitive, ScriptValue.asNumber?],
            TypeSystem.holds_of_typeOf? rfl⟩
      | double =>
          exact ⟨.double value,
            by simp [toHost, numericHost?, other, primitive, ScriptValue.asNumber?],
            TypeSystem.holds_of_typeOf? rfl⟩

theorem converts_string (standard : system.Standard) {value : String}
    (fits : stringCompatibility system value type = some tier) :
    context.Converts system store (.string value) type := by
  simp only [stringCompatibility] at fits
  cases primitive : (system.definition type).primitive? with
  | none =>
      simp only [primitive, Option.map_eq_some_iff] at fits
      rcases fits with ⟨number, named, -⟩
      have enumeration : (system.definition type).isEnumeration = true := by
        by_contra other
        rw [TypeDef.enumValue?_of_not_enumeration (by simpa using other)] at named
        cases named
      exact ⟨.enumeration type number, by simp [toHost, textHost?, primitive, enumeration, named],
        TypeSystem.holds_of_typeOf? rfl⟩
  | some kind =>
      have other := TypeDef.isEnumeration_of_primitive? primitive
      rcases standard.eq_of_primitive? primitive with rfl
      cases kind with
      | string =>
          exact ⟨.string value, by simp [toHost, textHost?, primitive, other],
            TypeSystem.holds_of_typeOf? rfl⟩
      | char =>
          simp only [primitive, Option.map_eq_some_iff] at fits
          rcases fits with ⟨character, only, -⟩
          have head : value.toList.head? = some character := by
            simp only [onlyChar?] at only
            split at only
            next single => rw [single, Option.some.inj only, List.head?_cons]
            next => cases only
          exact ⟨.char character, by simp [toHost, textHost?, primitive, head],
            TypeSystem.holds_of_typeOf? rfl⟩
      | _ => simp [primitive, TypeDef.enumValue?_of_not_enumeration other] at fits

/-- A proxy that is live here goes by the dispatch type that it was made under. -/
def Issued (context : Context) (proxy : Proxy) : Prop :=
  proxy.tag = context.cache.tag →
    ∀ entry, context.cache.lookup? proxy.key = some entry → entry.type = proxy.type

theorem converts_released {proxy : Proxy} (released : context.cache.isReleased proxy = true)
    (reference : (system.definition type).isValueType = false) :
    context.Converts system store (.proxy proxy) type :=
  ⟨.null, by simp [toHost, released], TypeSystem.holds_null reference⟩

theorem converts_owned (typed : context.cache.TypedIn store) {proxy : Proxy}
    (issued : context.Issued proxy) (owned : context.cache.owns proxy = true)
    (below : system.isAssignable proxy.type type = true) :
    context.Converts system store (.proxy proxy) type := by
  rcases Option.isSome_iff_exists.mp owned with ⟨value, resolved⟩
  have live : context.cache.isReleased proxy = false := by simp [IdentityCache.isReleased, owned]
  refine ⟨value, by simp [toHost, live, resolved], ?_⟩
  rcases IdentityCache.resolve?_eq_some_iff.mp resolved with ⟨own, entry, found, rfl⟩
  have dispatch := issued own entry found
  have carried := typed _ _ found
  refine ⟨?_, ?_⟩
  · intro isNull
    rw [isNull] at carried
    cases carried
  · intro _
    rw [carried, dispatch]
    exact below

theorem converts_proxy (typed : context.cache.TypedIn store) {proxy : Proxy}
    (issued : context.Issued proxy) (fits : context.proxyCompatibility system proxy type = some tier) :
    context.Converts system store (.proxy proxy) type := by
  simp only [proxyCompatibility] at fits
  split at fits
  next released =>
    split at fits
    next => cases fits
    next reference => exact converts_released released (by simpa using reference)
  next =>
    split at fits
    next => cases fits
    next owned =>
      have owns : context.cache.owns proxy = true := by simpa using owned
      split at fits
      next same =>
        apply converts_owned typed issued owns
        rw [same]
        exact TypeSystem.isAssignable_self type
      next =>
        split at fits
        next below => exact converts_owned typed issued owns below
        next => cases fits

theorem converts_object (standard : system.Standard) {value : ScriptValue}
    (fits : context.objectCompatibility value = some tier) :
    context.Converts system store value .object := by
  have notEnumeration : (system.definition .object).isEnumeration = false := by
    rw [standard.definition_object]
    rfl
  have notPrimitive : (system.definition .object).primitive? = none := by
    rw [standard.definition_object]
    rfl
  have ok {host : HostValue} (run : context.toHost system value .object = .ok host) :
      context.Converts system store value .object := ⟨host, run, standard.holds_object host⟩
  simp only [objectCompatibility] at fits
  cases value with
  | nil => exact ok rfl
  | boolean truth => exact ok rfl
  | integer number => exact ok (by simp [toHost, numericHost?, notEnumeration, notPrimitive]; rfl)
  | number value => exact ok (by simp [toHost, numericHost?, notEnumeration, notPrimitive]; rfl)
  | string text => exact ok (by simp [toHost, textHost?, notEnumeration, notPrimitive]; rfl)
  | function handle => exact ok rfl
  | proxy proxy =>
      simp only at fits
      split at fits
      next released => exact ok (by simp [toHost, released]; rfl)
      next live =>
        split at fits
        next owned =>
          rcases Option.isSome_iff_exists.mp owned with ⟨host, resolved⟩
          exact ok (by simp [toHost, live, resolved]; rfl)
        next => cases fits
  | table id =>
      rcases Option.map_eq_some_iff.mp fits with ⟨named, found, -⟩
      exact ok (by simp [toHost, found]; rfl)

/-- A value that is found to fit a type has a host value that a slot of the type can hold. -/
theorem converts_of_compatibility (standard : system.Standard) (typed : context.cache.TypedIn store)
    {value : ScriptValue} (issued : ∀ proxy, value = .proxy proxy → context.Issued proxy)
    (fits : context.compatibility system value type = some tier) :
    context.Converts system store value type := by
  simp only [compatibility] at fits
  split at fits
  next isObject =>
    subst isObject
    exact converts_object standard fits
  next =>
    cases value with
    | nil =>
        simp only at fits
        split at fits
        next => cases fits
        next reference => exact ⟨.null, rfl, TypeSystem.holds_null (by simpa using reference)⟩
    | boolean truth =>
        simp only at fits
        split at fits
        next primitive =>
          rcases standard.eq_of_primitive? primitive with rfl
          exact ⟨.boolean truth, rfl, TypeSystem.holds_of_typeOf? rfl⟩
        next => cases fits
    | integer number => exact converts_integer standard fits
    | number value => exact converts_number standard fits
    | string text => exact converts_string standard fits
    | function handle =>
        simp only at fits
        split at fits
        next callable =>
          refine ⟨.delegate ⟨type, [handle.target]⟩, ?_, TypeSystem.holds_of_typeOf? rfl⟩
          simp only [toHost]
          by_cases isDelegate : (system.definition type).isDelegate = true
          · rw [if_pos isDelegate]
          · rw [if_neg isDelegate]
            simp only [isDelegate, Bool.false_or, decide_eq_true_eq] at callable
            rw [callable]
        next => cases fits
    | proxy proxy => exact converts_proxy typed (issued proxy rfl) fits
    | table id =>
        simp only at fits
        split at fits
        next named =>
          simp only [Bool.and_eq_true, decide_eq_true_eq] at named
          rcases named with ⟨rfl, isType⟩
          rcases Option.isSome_iff_exists.mp isType with ⟨represented, found⟩
          exact ⟨.type represented, by simp [toHost, found], TypeSystem.holds_of_typeOf? rfl⟩
        next => cases fits

end Context

end ScriptBridge
