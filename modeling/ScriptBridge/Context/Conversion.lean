import ScriptBridge.Context.Basic

/-!
# Conversion of script values

Whether a script value can be passed where a host type is expected, how well it
fits, and what host value it becomes.
-/

namespace ScriptBridge

/-- The 32-bit integer equal to a 64-bit one. -/
def narrowInt64? (value : Int64) : Option Int32 :=
  if Int32.minValue.toInt ≤ value.toInt ∧ value.toInt ≤ Int32.maxValue.toInt then some value.toInt32
  else none

def charOfCode? (value : Int64) : Option Char :=
  if 0 ≤ value.toInt ∧ value.toInt < UInt32.size then
    let code := value.toInt.toNat.toUInt32
    if valid : code.isValidChar then some ⟨code, valid⟩ else none
  else none

def onlyChar? (text : String) : Option Char :=
  match text.toList with
  | [character] => some character
  | _ => none

namespace Context

variable (system : TypeSystem) (context : Context)

/-- How well a value fits a slot that takes every object. -/
def objectCompatibility (value : ScriptValue) : Option Tier :=
  match value with
  | .proxy proxy =>
      if context.cache.isReleased proxy then some .assignable
      else if context.cache.owns proxy then
        some (if proxy.type = .object then .exact else .assignable)
      else none
  | .table id => (context.heap.typeOf? id).map fun _ => .assignable
  | _ => some .assignable

def integerCompatibility (value : Int64) (type : TypeRef) : Option Tier :=
  match (system.definition type).primitive? with
  | some .int64 => some .exact
  | some .int32 => (narrowInt64? value).map fun _ => .exact
  | some .double | some .single => some .assignable
  | some .char => (charOfCode? value).map fun _ => .assignable
  | _ => if (system.definition type).isEnumeration then some .assignable else none

def numberCompatibility (value : Binary64) (type : TypeRef) : Option Tier :=
  match (system.definition type).primitive? with
  | some .double | some .single => some .exact
  | some .int64 => value.toInt64?.map fun _ => .assignable
  | some .int32 => (value.toInt64?.bind narrowInt64?).map fun _ => .assignable
  | _ =>
      if (system.definition type).isEnumeration && value.isIntegral then some .assignable else none

def stringCompatibility (value : String) (type : TypeRef) : Option Tier :=
  match (system.definition type).primitive? with
  | some .string => some .exact
  | some .char => (onlyChar? value).map fun _ => .assignable
  | _ => ((system.definition type).enumValue? value).map fun _ => .assignable

/-- How well a proxy fits a type; a released proxy reads as null. -/
def proxyCompatibility (proxy : Proxy) (type : TypeRef) : Option Tier :=
  if context.cache.isReleased proxy then
    if (system.definition type).isValueType then none else some .assignable
  else if !context.cache.owns proxy then none
  else if proxy.type = type then some .exact
  else if system.isAssignable proxy.type type then some .assignable
  else none

/-- How well a value fits a type; nothing if it cannot be passed where the type is expected. -/
def compatibility (value : ScriptValue) (type : TypeRef) : Option Tier :=
  if type = .object then context.objectCompatibility value
  else
    match value with
    | .nil => if (system.definition type).isValueType then none else some .assignable
    | .boolean _ =>
        if (system.definition type).primitive? = some .boolean then some .exact else none
    | .integer value => integerCompatibility system value type
    | .number value => numberCompatibility system value type
    | .string value => stringCompatibility system value type
    | .function _ =>
        if (system.definition type).isDelegate || type = .delegate then some .assignable else none
    | .proxy proxy => context.proxyCompatibility system proxy type
    | .table id =>
        if type = .typeType && (context.heap.typeOf? id).isSome then some .exact else none

/-- Whether a value can be passed where a type is expected. -/
def fits (value : ScriptValue) (type : TypeRef) : Bool :=
  (context.compatibility system value type).isSome

/-- The numeric host value of a script value, for a slot of a type. -/
def numericHost? (value : ScriptValue) (type : TypeRef) : Option HostValue :=
  if (system.definition type).isEnumeration then
    value.asInteger?.map fun number => .enumeration type number
  else
    match (system.definition type).primitive? with
    | some .int32 => (value.asInteger?.bind narrowInt64?).map .int32
    | some .int64 => value.asInteger?.map .int64
    | some .single => value.asNumber?.map fun number => .single number.narrow
    | some .double => value.asNumber?.map .double
    | some .char => (value.asInteger?.bind charOfCode?).map .char
    | _ =>
        match value with
        | .integer number => if type = .object then some (.int64 number) else none
        | .number number => if type = .object then some (.double number) else none
        | _ => none

/-- The host value of a text, for a slot of a type. -/
def textHost? (value : String) (type : TypeRef) : Option HostValue :=
  if (system.definition type).primitive? = some .char then value.toList.head?.map .char
  else if (system.definition type).isEnumeration then
    ((system.definition type).enumValue? value).map fun number => .enumeration type number
  else some (.string value)

/--
The host value of a script value, for a slot of a type. Callers ask first
whether the value fits; one that still has no host value is a mismatch.
-/
def toHost (value : ScriptValue) (type : TypeRef) : Except ScriptError HostValue :=
  let orMismatch (result : Option HostValue) : Except ScriptError HostValue :=
    match result with
    | some host => .ok host
    | none => .error (.typeMismatch (system.fullName type ++ " expected, got " ++ value.kindName))
  match value with
  | .nil => .ok .null
  | .boolean truth => .ok (.boolean truth)
  | .integer _ | .number _ => orMismatch (numericHost? system value type)
  | .string text => orMismatch (textHost? system text type)
  | .function handle =>
      let delegateType := if (system.definition type).isDelegate then type else .delegate
      .ok (.delegate ⟨delegateType, [handle.target]⟩)
  | .proxy proxy =>
      if context.cache.isReleased proxy then .ok .null
      else
        match context.cache.resolve? proxy with
        | some host => .ok host
        | none => .error (.staleProxy (system.fullName proxy.type))
  | .table id => orMismatch ((context.heap.typeOf? id).map .type)

end Context

end ScriptBridge
