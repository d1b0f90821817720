import ScriptBridge.Host.Value
import ScriptBridge.Number.Printed

/-!
# Script values

The values of the scripting side. Functions, tables and proxies are handles:
what they stand for is kept by the context that made them.
-/

namespace ScriptBridge

/-- The handle of a callable: its place in the order of registration. -/
structure CallableHandle where
  index : UInt32
deriving DecidableEq, Inhabited

/-- The number under which a delegate stores a callable. -/
def CallableHandle.target (handle : CallableHandle) : UInt64 := handle.index.toUInt64

/-- The callable that a delegate target stands for; targets of more than 32 bits stand for none. -/
def CallableHandle.ofTarget? (target : UInt64) : Option CallableHandle :=
  if target.toNat < UInt32.size then some ⟨target.toUInt32⟩ else none

/-- The number of a table: its place in the order of creation. -/
structure TableId where
  index : Nat
deriving DecidableEq, Inhabited

/-- The mark of the identity cache that made a proxy. -/
structure CacheTag where
  number : Nat
deriving DecidableEq, Inhabited

/-- A slot of an identity cache at one of its generations. -/
structure ProxyKey where
  index : Nat
  generation : UInt32
deriving DecidableEq, Inhabited

def ProxyKey.text (key : ProxyKey) : String :=
  natText key.index ++ "#" ++ natText key.generation.toNat

/-- A script-side stand-in for a host instance, with the type that selects its members. -/
structure Proxy where
  key : ProxyKey
  type : TypeRef
  tag : CacheTag
deriving DecidableEq

/-- A value of the scripting side. -/
inductive ScriptValue where
  | nil
  | boolean (value : Bool)
  | integer (value : Int64)
  | number (value : Binary64)
  | string (value : String)
  | function (handle : CallableHandle)
  | proxy (proxy : Proxy)
  | table (id : TableId)
deriving DecidableEq

namespace ScriptValue

instance : Inhabited ScriptValue := ⟨.nil⟩

def kindName : ScriptValue → String
  | .nil => "nil"
  | .boolean _ => "boolean"
  | .integer _ | .number _ => "number"
  | .string _ => "string"
  | .function _ => "function"
  | .proxy _ => "userdata"
  | .table _ => "table"

def isNil (value : ScriptValue) : Bool := value = .nil

/-- Whether a condition holds for the value: all but nil and false. -/
def isTruthy : ScriptValue → Bool
  | .nil | .boolean false => false
  | _ => true

def asString? : ScriptValue → Option String
  | .string value => some value
  | _ => none

/-- The integer of an integer or of a number without fractional part. -/
def asInteger? : ScriptValue → Option Int64
  | .integer value => some value
  | .number value => value.toInt64?
  | _ => none

def asNumber? : ScriptValue → Option Binary64
  | .integer value => some (.ofInt value.toInt)
  | .number value => some value
  | _ => none

def asProxy? : ScriptValue → Option Proxy
  | .proxy value => some value
  | _ => none

def asFunction? : ScriptValue → Option CallableHandle
  | .function value => some value
  | _ => none

def asTable? : ScriptValue → Option TableId
  | .table id => some id
  | _ => none

/--
Equality as scripts see it. An integer never equals a number; two numbers compare
numerically, so that NaN differs from itself; handles compare by what they name.
-/
def equal : ScriptValue → ScriptValue → Bool
  | .number left, .number right => left.equal right
  | left, right => left = right

end ScriptValue

/-- A value that can be a table key. -/
inductive ScriptKey where
  | boolean (value : Bool)
  | integer (value : Int64)
  | string (value : String)
deriving DecidableEq

namespace ScriptKey

/-- The key of a value; numbers are keys if they have no fractional part. -/
def ofValue? : ScriptValue → Option ScriptKey
  | .boolean value => some (.boolean value)
  | .string value => some (.string value)
  | other => other.asInteger?.map .integer

def toValue : ScriptKey → ScriptValue
  | .boolean value => .boolean value
  | .integer value => .integer value
  | .string value => .string value

/-- The order of keys: false, true, the integers, and the strings. -/
def inOrder : ScriptKey → ScriptKey → Bool
  | .boolean left, .boolean right => !left || right
  | .boolean _, _ => true
  | .integer _, .boolean _ => false
  | .integer left, .integer right => left ≤ right
  | .integer _, .string _ => true
  | .string left, .string right => decide (left ≤ right)
  | .string _, _ => false

end ScriptKey

/-- The text of a key in messages: simple values are spelled out, others give their kind. -/
def ScriptValue.keyText : ScriptValue → String
  | .string value => value
  | .integer value => intText value.toInt
  | .number value => value.text
  | .boolean value => if value then "true" else "false"
  | other => other.kindName

end ScriptBridge
