import Mathlib.Tactic.NormNum
import ScriptBridge.Proofs.Number.Integral
import ScriptBridge.Proofs.Realms.Arguments

/-!
# Integers behind numbers

Table keys, parameters and enumeration values take the integer behind a number. It
is the exact value of the number within the range of 64-bit integers. A whole number
beyond an end of the range is taken for that end, so that numbers which differ can
be the same key or reach the host as one integer.
-/

namespace ScriptBridge

namespace ScriptValue

/-- The exact value of a numeric script value. -/
def rational? : ScriptValue → Option ℚ
  | .integer value => some value.toInt
  | .number value => value.value?
  | _ => none

theorem asInteger?_eq_some_iff {value : ScriptValue} {result : Int64} :
    value.asInteger? = some result ↔
      ∃ whole : Int, value.rational? = some (whole : ℚ) ∧ result.toInt = max (-2 ^ 63) (min whole (2 ^ 63 - 1)) := by
  cases value with
  | integer value =>
      have least := value.le_toInt
      have greatest := value.toInt_lt
      have inRange : max (-2 ^ 63) (min value.toInt (2 ^ 63 - 1)) = value.toInt := by omega
      simp only [asInteger?, rational?, Option.some.injEq, Int.cast_inj, exists_eq_left', inRange, Int64.toInt_inj,
        eq_comm (a := result)]
  | number value => exact Binary64.toInt64?_eq_some_iff
  | _ => simp [asInteger?, rational?]

theorem ofValue?_eq_integer_iff {value : ScriptValue} {result : Int64} :
    ScriptKey.ofValue? value = some (.integer result) ↔ value.asInteger? = some result := by
  cases value <;> simp [ScriptKey.ofValue?, asInteger?]

/-- A numeric value has the key of its own integer. -/
theorem exists_integer_of_ofValue? {value : ScriptValue} (numeric : value.kindName = "number") {key : ScriptKey}
    (found : ScriptKey.ofValue? value = some key) : ∃ result, value.asInteger? = some result ∧ key = .integer result := by
  cases value with
  | integer value => exact ⟨value, rfl, (Option.some.inj found).symm⟩
  | number value =>
      rcases Option.map_eq_some_iff.mp found with ⟨result, read, same⟩
      exact ⟨result, read, same.symm⟩
  | _ => simp [kindName] at numeric

/-- The values with the key of a numeric value: those that equal it, and what lies at or beyond the same end. -/
theorem ofValue?_eq_some_iff {left right : ScriptValue} (numeric : left.kindName = "number") {key : ScriptKey}
    (found : ScriptKey.ofValue? left = some key) :
    ScriptKey.ofValue? right = some key ↔
      ∃ first second : Int, left.rational? = some (first : ℚ) ∧ right.rational? = some (second : ℚ) ∧
        (first = second ∨ 2 ^ 63 - 1 ≤ min first second ∨ max first second ≤ -2 ^ 63) := by
  rcases exists_integer_of_ofValue? numeric found with ⟨result, read, rfl⟩
  rcases asInteger?_eq_some_iff.mp read with ⟨first, exact, clamped⟩
  rw [ofValue?_eq_integer_iff, asInteger?_eq_some_iff]
  constructor
  · rintro ⟨second, same, alsoClamped⟩
    exact ⟨first, second, exact, same, by omega⟩
  · rintro ⟨other, second, alsoExact, same, ends⟩
    obtain rfl : first = other := by rwa [exact, Option.some.injEq, Int.cast_inj] at alsoExact
    exact ⟨second, same, by omega⟩

end ScriptValue

namespace Context

variable {system : TypeSystem} {context : Context} {type : TypeRef} {number : Binary64}

/-- The types of the slots that hold integers of 32 or 64 bits or values of an enumeration. -/
def TakesIntegers (system : TypeSystem) (type : TypeRef) : Prop :=
  (system.definition type).primitive? = some .int64 ∨ (system.definition type).primitive? = some .int32 ∨
    (system.definition type).isEnumeration = true

theorem toInt64_of_narrowInt64? {integer : Int64} {narrow : Int32} (narrowed : narrowInt64? integer = some narrow) :
    narrow.toInt64 = integer ∧ -2 ^ 31 ≤ integer.toInt ∧ integer.toInt < 2 ^ 31 := by
  have least : Int32.minValue.toInt = -2 ^ 31 := by decide
  have greatest : Int32.maxValue.toInt = 2 ^ 31 - 1 := by decide
  rw [narrowInt64?] at narrowed
  split at narrowed
  next inRange =>
    obtain rfl := Option.some.inj narrowed
    refine ⟨?_, by omega, by omega⟩
    rw [← Int64.toInt_inj, Int32.toInt_toInt64, Int64.toInt_toInt32]
    exact Int.bmod_eq_of_le (by omega) (by omega)
  next => cases narrowed

/-- A number that fits a slot for integers becomes the integer behind it. -/
theorem toHost_of_fits_number (plain : system.PlainObject) (takes : TakesIntegers system type)
    (fits : context.fits system (.number number) type = true) :
    ∃ host integer, context.toHost system (.number number) type = .ok host ∧ host.asInt64? = some integer ∧
      number.toInt64? = some integer ∧
      ((system.definition type).primitive? = some .int32 → -2 ^ 31 ≤ integer.toInt ∧ integer.toInt < 2 ^ 31) := by
  have notObject : type ≠ .object := by
    rintro rfl
    rw [TakesIntegers, plain] at takes
    revert takes
    decide
  simp only [Context.fits, compatibility, if_neg notObject, numberCompatibility] at fits
  simp only [toHost, numericHost?, ScriptValue.asInteger?]
  cases primitive : (system.definition type).primitive? with
  | none =>
      have enumeration : (system.definition type).isEnumeration = true := by
        simpa [TakesIntegers, primitive] using takes
      have integral : number.isIntegral = true := by simpa [primitive, enumeration] using fits
      rcases Option.isSome_iff_exists.mp integral with ⟨whole, decoded⟩
      have read : number.toInt64? = some (saturateInt64 whole) := by
        rw [Binary64.toInt64?, decoded, Option.map_some]
      exact ⟨.enumeration type (saturateInt64 whole), saturateInt64 whole, by simp [enumeration, read], rfl, read,
        by simp⟩
  | some kind =>
      have other := TypeDef.isEnumeration_of_primitive? primitive
      obtain rfl | rfl : kind = .int64 ∨ kind = .int32 := by simpa [TakesIntegers, primitive, other] using takes
      · simp only [primitive, Option.isSome_map] at fits
        rcases Option.isSome_iff_exists.mp fits with ⟨integer, read⟩
        exact ⟨.int64 integer, integer, by simp [other, read], rfl, read, by simp⟩
      · simp only [primitive, Option.isSome_map] at fits
        rcases Option.isSome_iff_exists.mp fits with ⟨narrow, both⟩
        rcases Option.bind_eq_some_iff.mp both with ⟨integer, read, narrowed⟩
        rcases toInt64_of_narrowInt64? narrowed with ⟨same, bounds⟩
        exact ⟨.int32 narrow, integer, by simp [other, both], by rw [HostValue.asInt64?, same], read, fun _ => bounds⟩

end Context

namespace Realm

/--
The integer behind a number. It exists exactly if the number is whole, and it is the number itself within the range
of 64-bit integers and the nearer end of the range outside of it. Two numeric values are the same key exactly if they
are equal or lie both at or beyond one end. In every run a number that fits a slot for integers of 64 or 32 bits or
for the values of an enumeration becomes the integer behind it there, which for 32 bits is the number itself.
-/
theorem integers_clamped (actions : List Action) (context : Context) :
    let system := (core.actAll actions).system
    (∀ number (whole : Int), number.value? = some (whole : ℚ) →
      ∃ integer, (ScriptValue.number number).asInteger? = some integer ∧
        integer.toInt = max (-2 ^ 63) (min whole (2 ^ 63 - 1))) ∧
    (∀ number integer, (ScriptValue.number number).asInteger? = some integer →
      ∃ whole : Int, number.value? = some (whole : ℚ)) ∧
    (∀ left right key, left.kindName = "number" → ScriptKey.ofValue? left = some key →
      (ScriptKey.ofValue? right = some key ↔
        ∃ first second : Int, left.rational? = some (first : ℚ) ∧ right.rational? = some (second : ℚ) ∧
          (first = second ∨ 2 ^ 63 - 1 ≤ min first second ∨ max first second ≤ -2 ^ 63))) ∧
    ∀ number type, Context.TakesIntegers system type → context.fits system (.number number) type = true →
      ∃ host integer whole, context.toHost system (.number number) type = .ok host ∧
        host.asInt64? = some integer ∧ number.value? = some ((whole : Int) : ℚ) ∧
        integer.toInt = max (-2 ^ 63) (min whole (2 ^ 63 - 1)) ∧
        ((system.definition type).primitive? = some .int32 → integer.toInt = whole) := by
  intro system
  refine ⟨fun number whole exact => ?_, fun number integer read => ?_, fun _ _ _ numeric found =>
    ScriptValue.ofValue?_eq_some_iff numeric found, fun number type takes fits => ?_⟩
  · have clamped := toInt_saturateInt64 whole
    exact ⟨saturateInt64 whole, Binary64.toInt64?_eq_some_iff.mpr ⟨whole, exact, clamped⟩, clamped⟩
  · rcases Binary64.toInt64?_eq_some_iff.mp read with ⟨whole, exact, -⟩
    exact ⟨whole, exact⟩
  · rcases Context.toHost_of_fits_number (plainObject_actAll actions) takes fits with
      ⟨host, integer, converted, held, read, short⟩
    rcases Binary64.toInt64?_eq_some_iff.mp read with ⟨whole, exact, clamped⟩
    refine ⟨host, integer, whole, converted, held, exact, clamped, fun isShort => ?_⟩
    have bounds := short isShort
    omega

/-- The double that is three. -/
def three : Binary64 := ⟨0x4008000000000000⟩

theorem value?_three : three.value? = some ((3 : Int) : ℚ) := by
  have decoded : three.decode = .finite false (3 * 2 ^ 51) (-51) := by decide +kernel
  rw [Binary64.value?, decoded, Decoded.value?]
  norm_num

/-- The number three is a whole number, the same key as the integer, and passed as it is for a 32-bit integer. -/
theorem integers_clamped_three :
    let system := (core.actAll []).system
    let context := Context.fresh .standard ⟨1⟩
    (∃ integer, (ScriptValue.number three).asInteger? = some integer ∧ integer.toInt = 3) ∧
    ScriptKey.ofValue? (.number three) = some (.integer 3) ∧
    ∃ host integer, context.toHost system (.number three) .int32 = .ok host ∧ host.asInt64? = some integer ∧
      integer.toInt = 3 := by
  intro system context
  rcases integers_clamped [] context with ⟨read, -, keys, passed⟩
  have isShort : (system.definition .int32).primitive? = some .int32 := by decide +kernel
  have fits : context.fits system (.number three) .int32 = true := by decide +kernel
  have key : ScriptKey.ofValue? (.integer 3) = some (.integer 3) := rfl
  rcases passed three .int32 (.inr (.inl isShort)) fits with ⟨host, integer, whole, converted, held, exact, -, same⟩
  obtain rfl : 3 = whole := by rwa [value?_three, Option.some.injEq, Int.cast_inj] at exact
  refine ⟨?_, ?_, host, integer, converted, held, same isShort⟩
  · simpa using read three 3 value?_three
  · exact (keys (.integer 3) (.number three) (.integer 3) rfl key).mpr ⟨3, 3, rfl, value?_three, .inl rfl⟩

/-- The double that is one more than the greatest 64-bit integer. -/
def beyondInt64 : Binary64 := ⟨0x43E0000000000000⟩

theorem value?_beyondInt64 : beyondInt64.value? = some ((2 ^ 63 : Int) : ℚ) := by
  have decoded : beyondInt64.decode = .finite false (2 ^ 52) 11 := by decide +kernel
  rw [Binary64.value?, decoded, Decoded.value?]
  norm_num

/--
The integer behind a number need not be the number: beyond the greatest 64-bit integer it is that integer, and a
number there is the same key as it.
-/
theorem not_forall_integers_exact :
    (¬∀ number integer, (ScriptValue.number number).asInteger? = some integer →
      number.value? = some (integer.toInt : ℚ)) ∧
    ¬∀ left right key, ScriptKey.ofValue? left = some key → ScriptKey.ofValue? right = some key →
      left.kindName = "number" → right.kindName = "number" → left.rational? = right.rational? := by
  have read : (ScriptValue.number beyondInt64).asInteger? = some Int64.maxValue := by decide +kernel
  have greatest : Int64.maxValue.toInt = 2 ^ 63 - 1 := by decide
  constructor
  · intro claim
    have same := claim beyondInt64 Int64.maxValue read
    rw [value?_beyondInt64, greatest, Option.some.injEq, Int.cast_inj] at same
    omega
  · intro claim
    have key : ScriptKey.ofValue? (.number beyondInt64) = some (.integer Int64.maxValue) :=
      ScriptValue.ofValue?_eq_integer_iff.mpr read
    have same := claim (.number beyondInt64) (.integer Int64.maxValue) _ key rfl rfl rfl
    rw [ScriptValue.rational?, ScriptValue.rational?, value?_beyondInt64, greatest, Option.some.injEq, Int.cast_inj] at same
    omega

end Realm

end ScriptBridge
