import ScriptBridge.Proofs.Conversion.Soundness
import ScriptBridge.Proofs.Steps.Members

/-!
# Arguments of a ranked candidate

A call ranks its candidates in one pass over the parameters and converts the
arguments of the best one in another. Both passes line up: whatever the first
accepts the second converts, each argument for the parameter that it was ranked
against.
-/

namespace ScriptBridge

open Bridge

/-- The type of all objects is what every type system starts with. -/
def TypeSystem.PlainObject (system : TypeSystem) : Prop :=
  system.definition .object = TypeDef.named "System" "Object" .reference

namespace Context

variable {system : TypeSystem} {context : Context} {type : TypeRef}

theorem isSome_numericHost?_of_integer {value : Int64}
    (fits : (integerCompatibility system value type).isSome = true) :
    (numericHost? system (.integer value) type).isSome = true := by
  simp only [integerCompatibility] at fits
  cases primitive : (system.definition type).primitive? with
  | none =>
      have enumeration : (system.definition type).isEnumeration = true := by
        by_contra other
        simp [primitive, other] at fits
      simp [numericHost?, enumeration, ScriptValue.asInteger?]
  | some kind =>
      have other := TypeDef.isEnumeration_of_primitive? primitive
      cases kind <;> simp_all [numericHost?, ScriptValue.asInteger?, ScriptValue.asNumber?]

theorem isSome_numericHost?_of_number {value : Binary64}
    (fits : (numberCompatibility system value type).isSome = true) :
    (numericHost? system (.number value) type).isSome = true := by
  simp only [numberCompatibility] at fits
  cases primitive : (system.definition type).primitive? with
  | none =>
      have enumeration : (system.definition type).isEnumeration = true ∧ value.isIntegral = true := by
        by_contra other
        rw [primitive] at fits
        grind
      have integer : value.toInt64?.isSome = true := by
        rw [Binary64.toInt64?, Option.isSome_map]
        exact enumeration.2
      simp [numericHost?, enumeration.1, ScriptValue.asInteger?, integer]
  | some kind =>
      have other := TypeDef.isEnumeration_of_primitive? primitive
      cases kind <;> simp_all [numericHost?, ScriptValue.asInteger?, ScriptValue.asNumber?, -Option.map_bind]

theorem isSome_textHost?_of_string {value : String}
    (fits : (stringCompatibility system value type).isSome = true) :
    (textHost? system value type).isSome = true := by
  simp only [stringCompatibility] at fits
  simp only [textHost?]
  split
  next isChar =>
    have single : (onlyChar? value).isSome = true := by simpa [isChar] using fits
    rw [onlyChar?] at single
    split at single
    next only => simp [only]
    next => cases single
  next notChar =>
    split
    next enumeration =>
      have notPrimitive : (system.definition type).primitive? = none := by
        by_contra primitive
        rcases Option.ne_none_iff_exists'.mp primitive with ⟨kind, primitive⟩
        rw [TypeDef.isEnumeration_of_primitive? primitive] at enumeration
        cases enumeration
      simpa [notPrimitive] using fits
    next => rfl

/-- A proxy that is released, or has an instance here, has a host value for every type. -/
theorem toHost_proxy {proxy : Proxy} (here : context.cache.isReleased proxy = true ∨ context.cache.owns proxy = true) :
    ∃ host, context.toHost system (.proxy proxy) type = .ok host := by
  by_cases released : context.cache.isReleased proxy = true
  · exact ⟨.null, by simp [toHost, released]⟩
  · rcases Option.isSome_iff_exists.mp (here.resolve_left released) with ⟨host, resolved⟩
    exact ⟨host, by simp [toHost, released, resolved]⟩

theorem toHost_of_objectCompatibility (plain : system.PlainObject) {value : ScriptValue}
    (fits : (context.objectCompatibility value).isSome = true) :
    ∃ host, context.toHost system value .object = .ok host := by
  have notEnumeration : (system.definition .object).isEnumeration = false := by
    rw [plain]
    rfl
  have notPrimitive : (system.definition .object).primitive? = none := by
    rw [plain]
    rfl
  simp only [objectCompatibility] at fits
  cases value with
  | proxy proxy =>
      apply toHost_proxy
      by_contra neither
      grind
  | table id =>
      rw [Option.isSome_map] at fits
      rcases Option.isSome_iff_exists.mp fits with ⟨named, found⟩
      exact ⟨.type named, by simp [toHost, found]⟩
  | _ => simp [toHost, numericHost?, textHost?, notEnumeration, notPrimitive]

/-- A value that fits a type has a host value for a slot of the type. -/
theorem toHost_of_fits (plain : system.PlainObject) {value : ScriptValue}
    (fits : context.fits system value type = true) : ∃ host, context.toHost system value type = .ok host := by
  simp only [Context.fits, compatibility] at fits
  split at fits
  next isObject =>
    subst isObject
    exact toHost_of_objectCompatibility plain fits
  next =>
    cases value with
    | nil => exact ⟨.null, rfl⟩
    | boolean truth => exact ⟨.boolean truth, rfl⟩
    | integer number =>
        rcases Option.isSome_iff_exists.mp (isSome_numericHost?_of_integer fits) with ⟨host, converted⟩
        exact ⟨host, by simp [toHost, converted]⟩
    | number number =>
        rcases Option.isSome_iff_exists.mp (isSome_numericHost?_of_number fits) with ⟨host, converted⟩
        exact ⟨host, by simp [toHost, converted]⟩
    | string text =>
        rcases Option.isSome_iff_exists.mp (isSome_textHost?_of_string fits) with ⟨host, converted⟩
        exact ⟨host, by simp [toHost, converted]⟩
    | function handle => exact ⟨_, rfl⟩
    | proxy proxy =>
        apply toHost_proxy
        by_contra neither
        simp only [proxyCompatibility] at fits
        grind
    | table id =>
        simp only at fits
        split at fits
        next named =>
          rcases Option.isSome_iff_exists.mp (Bool.and_eq_true .. ▸ named).2 with ⟨represented, found⟩
          exact ⟨.type represented, by simp [toHost, found]⟩
        next => cases fits

end Context

/-- How many of some parameters the caller supplies. -/
def Parameter.inputCount (parameters : List Parameter) : Nat :=
  (parameters.filter fun parameter => parameter.mode ≠ .out).length

/--
A list of parameters that a call can fill: their types are known, and only the last one collects
arguments, into an array.
-/
structure Specialization.Fills (specialization : Specialization) (parameters : List Parameter) : Prop where
  resolves : ∀ parameter ∈ parameters, ∃ type, specialization.resolve parameter.type = .ok type ∧
    (parameter.isVariadic = true → type.isArray = true)
  variadic_last : ∀ position parameter, parameters[position]? = some parameter →
    parameter.isVariadic = true → position + 1 = parameters.length ∧ parameter.mode ≠ .out

theorem Specialization.Fills.tail {specialization : Specialization} {parameter : Parameter}
    {parameters : List Parameter} (fills : specialization.Fills (parameter :: parameters)) :
    specialization.Fills parameters where
  resolves := fun other member => fills.resolves other (List.mem_cons_of_mem _ member)
  variadic_last := by
    intro position other present isVariadic
    have last := fills.variadic_last (position + 1) other present isVariadic
    exact ⟨by simpa using last.1, last.2⟩

/--
What a parameter receives in a context, given the arguments from its own on; a new array is made
between two states of the store.
-/
inductive Context.Passes (system : TypeSystem) (context : Context) (before after : HostStore)
    (parameter : Parameter) (type : TypeRef) (rest : List ScriptValue) : HostValue → Prop
  | default (out : parameter.mode = .out) :
      Passes system context before after parameter type rest (system.defaultValue type)
  | input {input : ScriptValue} {value : HostValue} (supplied : parameter.mode ≠ .out)
      (single : parameter.isVariadic = false) (head : rest.head? = some input)
      (converted : context.toHost system input type = .ok value) :
      Passes system context before after parameter type rest value
  | wholeArray {input : ScriptValue} {value : HostValue} (supplied : parameter.mode ≠ .out)
      (collects : parameter.isVariadic = true) (only : rest = [input])
      (fits : context.fits system input type = true)
      (converted : context.toHost system input type = .ok value) :
      Passes system context before after parameter type rest value
  | newArray {element : TypeRef} {elements : List HostValue} {reference : ObjectRef}
      (supplied : parameter.mode ≠ .out) (collects : parameter.isVariadic = true)
      (notWhole : ∀ input, rest = [input] → context.fits system input type = false)
      (array : type = .array element)
      (converted : List.Forall₂ (fun input value => context.toHost system input element = .ok value)
        rest elements)
      (absent : before.instance? reference = none)
      (made : after.instance? reference = some ⟨type, .empty, elements⟩) :
      Passes system context before after parameter type rest (.object reference)

namespace Host

variable {host : Host} {type element : TypeRef} {inputs : List ScriptValue}

theorem exec_mapM_toHost (plain : host.system.PlainObject) (world : World)
    (fit : ∀ input ∈ inputs, world.context.fits host.system input element = true) :
    ∃ elements, exec (inputs.mapM fun input => host.toHost input element) world = (.ok elements, world) ∧
      List.Forall₂ (fun input value => world.context.toHost host.system input element = .ok value)
        inputs elements := by
  induction inputs with
  | nil => exact ⟨[], rfl, .nil⟩
  | cons input rest ih =>
      rcases Context.toHost_of_fits plain (fit input (by simp)) with ⟨value, converted⟩
      rcases ih fun other member => fit other (by simp [member]) with ⟨elements, run, all⟩
      refine ⟨value :: elements, ?_, .cons converted all⟩
      rw [List.mapM_cons, exec_bind, exec_toHost, converted]
      simp only [exec_bind_of_ok run, exec_pure]

/-- A parameter that collects arguments receives the array that they were ranked as. -/
theorem exec_collectVariadic (plain : host.system.PlainObject) {parameter : Parameter}
    (supplied : parameter.mode ≠ .out) (collects : parameter.isVariadic = true) (isArray : type.isArray = true)
    (world : World) (ranked : (world.context.variadicTiers? host.system type inputs).isSome = true) :
    ∃ value store,
      exec (host.collectVariadic type inputs) world = (.ok value, { world with store := store }) ∧
      world.context.Passes host.system world.store store parameter type inputs value := by
  -- A single argument that fits the array itself is passed as it is, not as an element.
  by_cases whole : ∃ single, inputs = [single] ∧ world.context.fits host.system single type = true
  · rcases whole with ⟨single, rfl, fits⟩
    rcases Context.toHost_of_fits plain fits with ⟨value, converted⟩
    refine ⟨value, world.store, ?_, .wholeArray supplied collects rfl fits converted⟩
    simp only [collectVariadic, exec_bind, exec_context, fits, if_true, exec_toHost, converted]
  · cases type with
    | declared index => cases isArray
    | array element =>
        have notWhole : ∀ single, inputs = [single] →
            world.context.fits host.system single (.array element) = false := by
          intro single same
          by_contra fits
          exact whole ⟨single, same, by simpa using fits⟩
        have fit : ∀ input ∈ inputs, world.context.fits host.system input element = true := by
          simp only [Context.variadicTiers?, TypeRef.element?] at ranked
          split at ranked
          next tier found =>
            split at found
            next single => 
              have unfit := notWhole single rfl
              rw [Context.fits, found] at unfit
              cases unfit
            next => cases found
          next =>
            split at ranked
            next all => simpa using all
            next => cases ranked
        rcases exec_mapM_toHost plain world fit with ⟨elements, run, converted⟩
        refine ⟨.object (world.store.allocate ⟨.array element, .empty, elements⟩).1,
          (world.store.allocate ⟨.array element, .empty, elements⟩).2, ?_,
          .newArray supplied collects notWhole rfl converted ?_ ?_⟩
        · have gathered : exec (host.collectVariadic (.array element) inputs) world =
              exec (host.gatherArray (.array element) element inputs) world := by
            rw [collectVariadic, exec_bind_of_ok (exec_context world)]
            cases inputs with
            | nil => rfl
            | cons single rest =>
                cases rest with
                | nil => simp [notWhole single rfl, TypeRef.element?]
                | cons => rfl
          rw [gathered, gatherArray, exec_bind_of_ok run, exec_bind_of_ok (exec_store world)]
          rfl
        · simp [HostStore.allocate, HostStore.instance?]
        · rw [HostStore.instance?_allocate, if_pos rfl]

/--
Whatever is ranked is converted: one value for each parameter, passed what the parameter was ranked
against. Only the last parameter can add to the store, so each passes its argument in the world that
the call started in.
-/
theorem exec_hostArguments (plain : host.system.PlainObject) {specialization : Specialization}
    {parameters : List Parameter} (fills : specialization.Fills parameters) (world : World)
    (ranked : (world.context.tiers? host.system specialization
      (parameters.filter fun parameter => parameter.mode ≠ .out) inputs).isSome = true) :
    ∃ values store,
      exec (host.hostArguments specialization parameters inputs) world =
        (.ok values, { world with store := store }) ∧
      values.length = parameters.length ∧
      ∀ (position : Nat) (parameter : Parameter), parameters[position]? = some parameter →
        ∃ type value, specialization.resolve parameter.type = .ok type ∧ values[position]? = some value ∧
          world.context.Passes host.system world.store store parameter type
            (inputs.drop (Parameter.inputCount (parameters.take position))) value := by
  induction parameters generalizing inputs with
  | nil => exact ⟨[], world.store, rfl, rfl, by simp⟩
  | cons first parameters ih =>
      rcases fills.resolves first (by simp) with ⟨type, resolved, isArray⟩
      -- An out parameter takes no argument, one that collects takes all that are left, any other takes one.
      by_cases out : first.mode = .out
      · rw [List.filter_cons_of_neg (by simpa using out)] at ranked
        rcases ih fills.tail ranked with ⟨values, store, run, length, passes⟩
        refine ⟨host.system.defaultValue type :: values, store, ?_, by simp [length], ?_⟩
        · simp only [hostArguments, resolved, if_pos out, exec_bind_of_ok run, exec_pure]
        · intro position parameter present
          cases position with
          | zero =>
              obtain rfl := Option.some.inj present
              exact ⟨type, _, resolved, rfl, .default out⟩
          | succ position => simpa [Parameter.inputCount, out] using passes position parameter present
      · rw [List.filter_cons_of_pos (by simpa using out)] at ranked
        simp only [Context.tiers?, resolved] at ranked
        by_cases collects : first.isVariadic = true
        · have last := (fills.variadic_last 0 first rfl collects).1
          obtain rfl : parameters = [] := by simpa using last
          rw [if_pos collects] at ranked
          rcases exec_collectVariadic plain out collects (isArray collects) world ranked with
            ⟨value, store, run, passes⟩
          refine ⟨[value], store, ?_, rfl, ?_⟩
          · simp only [hostArguments, resolved, if_neg out, if_pos collects, exec_bind_of_ok run]
            rfl
          · intro position parameter present
            cases position with
            | zero =>
                obtain rfl := Option.some.inj present
                exact ⟨type, value, resolved, rfl, passes⟩
            | succ position => simp at present
        · rw [if_neg collects] at ranked
          cases inputs with
          | nil => cases ranked
          | cons input rest =>
              rcases Option.isSome_iff_exists.mp ranked with ⟨tiers, found⟩
              rcases Option.bind_eq_some_iff.mp found with ⟨tier, compatible, found⟩
              rcases Option.bind_eq_some_iff.mp found with ⟨others, rankedRest, -⟩
              have fits : world.context.fits host.system input type = true := by
                rw [Context.fits, compatible]
                rfl
              rcases Context.toHost_of_fits plain fits with ⟨value, converted⟩
              rcases ih fills.tail (Option.isSome_of_eq_some rankedRest) with ⟨values, store, run, length, passes⟩
              refine ⟨value :: values, store, ?_, by simp [length], ?_⟩
              · simp only [hostArguments, resolved, if_neg out, if_neg collects, List.headD_cons, List.tail_cons]
                rw [exec_bind, exec_toHost, converted]
                simp only [exec_bind_of_ok run, exec_pure]
              · intro position parameter present
                cases position with
                | zero =>
                    obtain rfl := Option.some.inj present
                    exact ⟨type, value, resolved, rfl, .input out (by simpa using collects) rfl converted⟩
                | succ position => simpa [Parameter.inputCount, out] using passes position parameter present

end Host

namespace MethodDef

/-- How many parameters before a position the caller supplies. -/
def inputsBefore (method : MethodDef) (position : Nat) : Nat :=
  Parameter.inputCount (method.parameters.take position)

/-- Whether the parameter at a position is supplied by the input of a number. -/
def Takes (method : MethodDef) (position number : Nat) : Prop :=
  ∃ parameter, method.parameters[position]? = some parameter ∧ parameter.mode ≠ .out ∧
    (number = method.inputsBefore position ∨
      parameter.isVariadic = true ∧ method.inputsBefore position < number)

/--
A declaration that calls can follow: only the last parameter collects arguments, it is supplied by the
caller and has an array type, and the generic parameters that the parameters mention are there.
-/
structure WellFormed (method : MethodDef) : Prop where
  variadic_last : ∀ position parameter, method.parameters[position]? = some parameter →
    parameter.isVariadic = true → position + 1 = method.parameters.length ∧ parameter.mode ≠ .out
  variadic_array : ∀ parameter ∈ method.parameters, parameter.isVariadic = true →
    ∀ specialization type, method.specialize = .ok specialization →
      specialization.resolve parameter.type = .ok type → type.isArray = true
  generics_declared : ∀ parameter ∈ method.parameters, ∀ index, parameter.type = .generic index →
    index < method.generics.length

variable {method : MethodDef} {position number : Nat}

theorem length_firstConstraints {name : String} {generics : List GenericParameter} {index : Nat}
    {types : List TypeRef} (chosen : firstConstraints name index generics = .ok types) :
    types.length = generics.length := by
  induction generics generalizing index types with
  | nil =>
      obtain rfl := Except.ok.inj chosen
      rfl
  | cons generic rest ih =>
      rw [firstConstraints] at chosen
      split at chosen
      · cases chosen
      · cases others : firstConstraints name (index + 1) rest with
        | error error =>
            rw [others] at chosen
            cases chosen
        | ok found =>
            rw [others] at chosen
            obtain rfl := Except.ok.inj chosen
            simp [ih others]

theorem WellFormed.fills (wellFormed : method.WellFormed) {specialization : Specialization}
    (specialized : method.specialize = .ok specialization) : specialization.Fills method.parameters where
  resolves := by
    intro parameter member
    have resolved : ∃ type, specialization.resolve parameter.type = .ok type := by
      cases kind : parameter.type with
      | host type => exact ⟨type, rfl⟩
      | generic index =>
          have bound := wellFormed.generics_declared parameter member index kind
          rw [specialize] at specialized
          cases chosen : firstConstraints method.name 0 method.generics with
          | error error =>
              rw [chosen] at specialized
              cases specialized
          | ok types =>
              rw [chosen] at specialized
              obtain rfl := Except.ok.inj specialized
              rw [← length_firstConstraints chosen] at bound
              exact ⟨types[index], by simp [Specialization.resolve, bound]⟩
    rcases resolved with ⟨type, resolved⟩
    exact ⟨type, resolved, fun collects =>
      wellFormed.variadic_array parameter member collects specialization type specialized resolved⟩
  variadic_last := wellFormed.variadic_last

theorem inputsBefore_succ {parameter : Parameter} (present : method.parameters[position]? = some parameter) :
    method.inputsBefore (position + 1) =
      method.inputsBefore position + if parameter.mode = .out then 0 else 1 := by
  rw [inputsBefore, inputsBefore, List.take_add_one, present, Parameter.inputCount, Parameter.inputCount,
    Option.toList_some, List.filter_append, List.length_append]
  by_cases out : parameter.mode = .out <;> simp [out]

theorem inputsBefore_mono (method : MethodDef) {position other : Nat} (before : position ≤ other) :
    method.inputsBefore position ≤ method.inputsBefore other :=
  (((List.take_sublist_take_left before).filter _)).length_le

theorem inputsBefore_length (method : MethodDef) : method.inputsBefore method.parameters.length = method.inputArity := by
  rw [inputsBefore, List.take_length]
  rfl

/-- The inputs before a parameter that is supplied are fewer than those before any later one. -/
theorem inputsBefore_lt {parameter : Parameter} (present : method.parameters[position]? = some parameter)
    (supplied : parameter.mode ≠ .out) {later : Nat} (after : position < later) :
    method.inputsBefore position < method.inputsBefore later := by
  have next := inputsBefore_succ present
  rw [if_neg supplied] at next
  have rest : method.inputsBefore (position + 1) ≤ method.inputsBefore later := method.inputsBefore_mono after
  omega

/-- An input of a number below the number of supplied parameters has a parameter of its own. -/
theorem exists_takes_of_lt {limit : Nat} (bound : number < method.inputsBefore limit) :
    ∃ position, method.Takes position number := by
  induction limit with
  | zero => simp [inputsBefore, Parameter.inputCount] at bound
  | succ position ih =>
      by_cases earlier : number < method.inputsBefore position
      · exact ih earlier
      · cases present : method.parameters[position]? with
        | none =>
            have beyond := List.getElem?_eq_none_iff.mp present
            rw [inputsBefore, List.take_of_length_le (by omega)] at bound
            rw [inputsBefore, List.take_of_length_le beyond] at earlier
            exact absurd bound earlier
        | some parameter =>
            have next := inputsBefore_succ present
            by_cases out : parameter.mode = .out
            · rw [if_pos out] at next
              omega
            · rw [if_neg out] at next
              exact ⟨position, parameter, present, out, .inl (by omega)⟩

/-- Every input of an accepted number goes to exactly one parameter. -/
theorem WellFormed.existsUnique_takes (wellFormed : method.WellFormed) {count : Nat}
    (accepted : Context.acceptsCount method count = true) (bound : number < count) :
    ∃! position, method.Takes position number := by
  have unique : ∀ position other, method.Takes position number → method.Takes other number →
      ¬position < other := by
    rintro position other ⟨parameter, present, supplied, taken⟩ ⟨later, laterPresent, -, laterTaken⟩ less
    have fewer := inputsBefore_lt present supplied less
    rcases taken with own | ⟨collects, -⟩
    · omega
    · have last := (wellFormed.variadic_last position parameter present collects).1
      have inside := (List.getElem?_eq_some_iff.mp laterPresent).1
      omega
  have taken : ∃ position, method.Takes position number := by
    by_cases own : number < method.inputArity
    · exact exists_takes_of_lt (method.inputsBefore_length ▸ own)
    · simp only [Context.acceptsCount, Bool.or_eq_true, decide_eq_true_eq, Bool.and_eq_true] at accepted
      rcases accepted with exact | ⟨collects, enough⟩
      · omega
      · rw [isVariadic, List.getLast?_eq_getElem?] at collects
        split at collects
        next parameter present =>
          have last := wellFormed.variadic_last _ parameter present collects
          have next := inputsBefore_succ present
          rw [last.1, inputsBefore_length, if_neg last.2] at next
          exact ⟨_, parameter, present, last.2, .inr ⟨collects, by omega⟩⟩
        next => cases collects
  rcases taken with ⟨position, takes⟩
  refine ⟨position, takes, fun other otherTakes => ?_⟩
  have notLess := unique position other takes otherTakes
  have notMore := unique other position otherTakes takes
  omega

end MethodDef

end ScriptBridge
