import ScriptBridge.Proofs.Conversion.Arguments
import ScriptBridge.Proofs.Realms.Actions

/-!
# Arguments in every run

In every realm the arguments of a call are passed just as they were ranked: a
candidate that matches is never refused afterwards, and each argument reaches the
one parameter that it was ranked against.
-/

namespace ScriptBridge.Realm

open Bridge

variable {realm : Realm}

theorem plainObject_act (plain : realm.system.PlainObject) (action : Action) :
    (realm.act action).system.PlainObject := by
  cases action with
  | declare definition =>
      cases declared : realm.system.declare? definition with
      | none => simpa [act, declare?, declared] using plain
      | some result =>
          have enough := realm.system.starts_with_core
          rw [TypeSystem.declare?] at declared
          split at declared
          next =>
            obtain rfl := Option.some.inj declared
            have first : 0 < realm.system.types.length := Nat.lt_of_lt_of_le (by decide) enough
            rw [TypeSystem.PlainObject, TypeRef.object, TypeSystem.definition] at plain ⊢
            simpa [act, declare?, TypeSystem.declare?, *, List.getElem?_append_left first] using plain
          next => cases declared
  | perform place operation =>
      cases found : realm.contexts[place]? with
      | none => simpa [act, perform?, found] using plain
      | some context => simpa [act_perform found] using plain
  | _ => exact plain

/-- In every run the type of all objects is the one that the realm started with. -/
theorem plainObject_actAll (actions : List Action) : (core.actAll actions).system.PlainObject := by
  induction actions using List.reverseRecOn with
  | nil => rfl
  | append_singleton actions action ih =>
      rw [actAll_append, actAll_cons, actAll_nil]
      exact plainObject_act ih action

/--
A candidate that is ranked always converts, and its arguments are aligned exactly. Of well-formed methods, on any
context of any run: each parameter of a candidate that matches receives one value, in order of declaration. One
that is produced receives the default value of its type, an ordinary one the conversion of the argument of its own
number, and one that collects the only argument left, if that fits as the whole array, or else a new array of the
conversions of all that are left. Every argument but the receiver goes to exactly one parameter.
-/
theorem arguments_aligned (actions : List Action) (owner : TypeRef) (name : String) (shape : CallShape)
    (methods : List Method) (wellFormed : ∀ method ∈ methods, method.definition.WellFormed) (world : World)
    (arguments : List ScriptValue) (candidate : Candidate) :
    let host := (core.actAll actions).host
    let group := OverloadGroup.ofMethods host.system owner name shape methods
    let method := candidate.method.definition
    let first := if shape = .onInstance ∧ candidate.isExtension = false then 1 else 0
    candidate ∈ group.candidates →
    (world.context.rank? host.system group arguments candidate).isSome = true →
    ∃ values store,
      exec (host.hostArguments candidate.specialization method.parameters
        (Context.inputsFor group candidate arguments)) world = (.ok values, { world with store := store }) ∧
      values.length = method.parameters.length ∧
      (∀ position parameter, method.parameters[position]? = some parameter →
        ∃ type value, candidate.specialization.resolve parameter.type = .ok type ∧ values[position]? = some value ∧
          world.context.Passes host.system world.store store parameter type
            (arguments.drop (first + method.inputsBefore position)) value) ∧
      ∀ number, first + number < arguments.length → ∃! position, method.Takes position number := by
  intro host group method first member ranked
  rcases List.mem_filterMap.mp member with ⟨declared, listed, offered⟩
  have made : candidate.method = declared ∧
      declared.definition.specialize = .ok candidate.specialization := by
    rw [OverloadGroup.candidate?] at offered
    split at offered
    next =>
      rcases Option.map_eq_some_iff.mp offered with ⟨specialization, specialized, rfl⟩
      refine ⟨rfl, ?_⟩
      cases result : declared.definition.specialize with
      | error error =>
          rw [result] at specialized
          cases specialized
      | ok found =>
          rw [result] at specialized
          rw [Option.some.inj specialized]
    next => cases offered
  have formed : method.WellFormed := by
    have formed := wellFormed declared listed
    rwa [← made.1] at formed
  have specialized : method.specialize = .ok candidate.specialization := by rw [← made.2, ← made.1]
  have skipped : group.receiverCount candidate = first := by
    simp only [OverloadGroup.receiverCount, group, OverloadGroup.ofMethods, first]
    cases candidate.isExtension <;> simp
  simp only [Context.rank?] at ranked
  split at ranked
  next accepted =>
    rw [Option.isSome_map] at ranked
    rcases @Host.exec_hostArguments host _ (plainObject_actAll actions) _ _ (formed.fills specialized) world ranked
      with ⟨values, store, run, length, passes⟩
    refine ⟨values, store, run, length, ?_, fun number bound => ?_⟩
    · intro position parameter present
      have passed := passes position parameter present
      rwa [Context.inputsFor, List.drop_drop, skipped] at passed
    · refine formed.existsUnique_takes accepted ?_
      rw [Context.inputsFor, List.length_drop, skipped]
      omega
  next => cases ranked

/-- A method that produces a count and collects marks. -/
def tally : MethodDef :=
  { MethodDef.named "Tally" (.native 0) with
    parameters := [⟨"label", .host .string, .byValue, false⟩, ⟨"count", .host .int32, .out, false⟩,
      ⟨"marks", .host (.array .int32), .byValue, true⟩] }

theorem wellFormed_tally : tally.WellFormed where
  variadic_last := by
    intro position parameter present collects
    have bound := (List.getElem?_eq_some_iff.mp present).1
    have table : ∀ position < 3, ∀ parameter, tally.parameters[position]? = some parameter →
        parameter.isVariadic = true → position + 1 = 3 ∧ parameter.mode ≠ .out := by
      simp only [tally]
      decide
    exact table position bound parameter present collects
  variadic_array := by
    intro parameter member collects specialization type _ resolved
    simp only [tally, List.mem_cons, List.not_mem_nil, or_false] at member
    rcases member with rfl | rfl | rfl
    · cases collects
    · cases collects
    · obtain rfl := Except.ok.inj resolved
      rfl
  generics_declared := by
    intro parameter member index generic
    simp only [tally, List.mem_cons, List.not_mem_nil, or_false] at member
    rcases member with rfl | rfl | rfl <;> cases generic

/-- The receiver aside, the first argument is the label and the two numbers after it become the array of marks. -/
theorem arguments_aligned_tally :
    let host := (core.actAll []).host
    let context := Context.fresh .standard ⟨1⟩
    let arguments : List ScriptValue := [.nil, .string "a", .integer 1, .integer 2]
    let candidate : Candidate := ⟨⟨.object, .method 0, tally⟩, .none, false⟩
    let group := OverloadGroup.ofMethods host.system .object "Tally" .onInstance [candidate.method]
    (context.rank? host.system group arguments candidate).isSome = true ∧
    ∃ values store,
      exec (host.hostArguments candidate.specialization tally.parameters
        (Context.inputsFor group candidate arguments)) ⟨.empty, context, []⟩ = (.ok values, ⟨store, context, []⟩) ∧
      (∃ value, values[2]? = some value ∧
        context.Passes host.system .empty store ⟨"marks", .host (.array .int32), .byValue, true⟩ (.array .int32)
          [.integer 1, .integer 2] value) ∧
      ∃! position, tally.Takes position 2 := by
  intro host context arguments candidate group
  have member : candidate ∈ group.candidates := by decide +kernel
  have ranked : (context.rank? host.system group arguments candidate).isSome = true := by decide +kernel
  rcases arguments_aligned [] .object "Tally" .onInstance [candidate.method] (by simpa using wellFormed_tally)
    ⟨.empty, context, []⟩ arguments candidate member ranked with ⟨values, store, run, -, passes, unique⟩
  refine ⟨ranked, values, store, run, ?_, unique 2 (by decide)⟩
  rcases passes 2 _ rfl with ⟨type, value, resolved, found, passed⟩
  obtain rfl := Except.ok.inj resolved
  exact ⟨value, found, passed⟩

end ScriptBridge.Realm
