import ScriptBridge.Host.Literal
import ScriptBridge.Host.Native

/-!
# Code of host methods

A small language in which the bodies of host methods can be written as data,
and its evaluation. Evaluation is total: statements have no loops.
-/

namespace ScriptBridge

/-- Arithmetic on numeric values. -/
inductive ArithmeticOperation where
  | add
  | subtract
  | multiply
deriving DecidableEq

/-- An expression of host code. -/
inductive Expression where
  | constant (literal : HostLiteral)
  | argument (position : Nat)
  | argumentCount
  | receiver
  | receiverSlot (name : String)
  | staticSlot (name : String)
  | slotOf (target : Expression) (name : String)
  | declaringType
  | genericArgument (position : Nat)
  /-- A label applied to the texts of all arguments. -/
  | tagged (label : String)
  | shown (value : Expression)
  | equal (left right : Expression)
  | less (orEqual : Bool) (left right : Expression)
  | arithmetic (operation : ArithmeticOperation) (left right : Expression)
  | sum (target : Expression)
  | length (target : Expression)
  /-- A new instance of a type, or of the declaring type, with some slots written. -/
  | construct (type : Option TypeRef) (slots : List (String × Expression))
  | array (element : TypeRef) (items : List Expression)

/-- A statement of host code. -/
inductive Statement where
  | give (value : Expression)
  | writeSlot (name : String) (value : Expression)
  | writeStatic (name : String) (value : Expression)
  | writeArgument (position : Nat) (value : Expression)
  | raise (message stackTrace : String)
  | branch (condition : Expression) (onTrue onFalse : List Statement)

namespace ArithmeticOperation

def word : ArithmeticOperation → String
  | .add => "add"
  | .subtract => "sub"
  | .multiply => "mul"

def ofWord? (word : String) : Option ArithmeticOperation :=
  [.add, .subtract, .multiply].find? fun operation => operation.word == word

/-- The operation on 64-bit integers, which wrap. -/
def onInt64 : ArithmeticOperation → Int64 → Int64 → Int64
  | .add, left, right => left + right
  | .subtract, left, right => left - right
  | .multiply, left, right => left * right

def onBinary64 : ArithmeticOperation → Binary64 → Binary64 → Binary64
  | .add, left, right => left.add right
  | .subtract, left, right => left.sub right
  | .multiply, left, right => left.mul right

/-- Integers give an integer, of 32 bits if both are; other numbers give a double, other values null. -/
def apply (operation : ArithmeticOperation) (left right : HostValue) : HostValue :=
  match left.asInt64?, right.asInt64? with
  | some leftValue, some rightValue =>
      let value := operation.onInt64 leftValue rightValue
      match left, right with
      | .int32 _, .int32 _ => .int32 value.toInt32
      | _, _ => .int64 value
  | _, _ =>
      match left.asDouble?, right.asDouble? with
      | some leftValue, some rightValue => .double (operation.onBinary64 leftValue rightValue)
      | _, _ => .null

end ArithmeticOperation

/-- Whether both values are numbers and in order. -/
def HostValue.inOrder (orEqual : Bool) (left right : HostValue) : Bool :=
  match left.asDouble?, right.asDouble? with
  | some leftValue, some rightValue =>
      if orEqual then leftValue.lessOrEqual rightValue else leftValue.less rightValue
  | _, _ => false

/-- The elements of a shared instance; other values have none. -/
def HostStore.elementsOf? (store : HostStore) (value : HostValue) : Option (List HostValue) :=
  (value.asObject?.bind store.instance?).map (·.elements)

/-- The wrapping sum of the integers among some values. -/
def HostValue.total (values : List HostValue) : Int64 :=
  values.foldl (fun sum value => sum + value.asInt64?.getD 0) 0

namespace Expression

variable (system : TypeSystem) (invocation : Invocation)

/-- A new instance of a type with some slots written; a copy if the type is a value type. -/
def instantiate (type : TypeRef) (slots : List (String × HostValue)) : NativeRun HostValue := do
  let initial := system.newInstance type
  let object := { initial with storage := initial.storage.insertAll slots }
  if (system.definition type).isValueType then return .copied object
  else
    let (reference, store) := (← get).allocate object
    set store
    return .object reference

mutual

def evaluate : Expression → NativeRun HostValue
  | .constant literal => do
      let (value, store) := (literal.make system).run (← get)
      set store
      return value
  | .argument position => invocation.argument position
  | .argumentCount => pure (.int32 (Int32.ofNat invocation.arguments.length))
  | .receiver => pure (invocation.receiver.getD .null)
  | .receiverSlot name => invocation.receiverSlot system name
  | .staticSlot name => invocation.staticSlot system name
  | .slotOf target name => do
      let value ← evaluate target
      return ((← get).slot? value name).getD .null
  | .declaringType => pure (.type invocation.declaringType)
  | .genericArgument position =>
      pure (match invocation.genericArguments[position]? with
        | some type => .type type
        | none => .null)
  | .tagged label => do
      let store ← get
      let texts := invocation.arguments.map (system.showValue store)
      return .string (label ++ "(" ++ ", ".intercalate texts ++ ")")
  | .shown value => do
      let value ← evaluate value
      return .string (system.showValue (← get) value)
  | .equal left right => do
      let leftValue ← evaluate left
      let rightValue ← evaluate right
      return .boolean (leftValue.equal rightValue)
  | .less orEqual left right => do
      let leftValue ← evaluate left
      let rightValue ← evaluate right
      return .boolean (leftValue.inOrder orEqual rightValue)
  | .arithmetic operation left right => do
      let leftValue ← evaluate left
      let rightValue ← evaluate right
      return operation.apply leftValue rightValue
  | .sum target => do
      let value ← evaluate target
      return ((← get).elementsOf? value).elim .null fun elements => .int64 (HostValue.total elements)
  | .length target => do
      let value ← evaluate target
      return ((← get).elementsOf? value).elim .null fun elements => .int32 (Int32.ofNat elements.length)
  | .construct type slots => do
      let values ← evaluateSlots slots
      instantiate system (type.getD invocation.declaringType) values
  | .array element items => do
      let elements ← evaluateAll items
      let (value, store) := (← get).newArray (.array element) elements
      set store
      return value

def evaluateAll : List Expression → NativeRun (List HostValue)
  | [] => pure []
  | item :: rest => do
      let value ← evaluate item
      let values ← evaluateAll rest
      return value :: values

/-- The named values of expressions in order. -/
def evaluateSlots : List (String × Expression) → NativeRun (List (String × HostValue))
  | [] => pure []
  | (name, item) :: rest => do
      let value ← evaluate item
      let values ← evaluateSlots rest
      return (name, value) :: values

end

end Expression

/-- The invocation with an argument replaced, or the exception that it is missing. -/
def Invocation.writeArgument (invocation : Invocation) (position : Nat) (value : HostValue) :
    NativeRun Invocation :=
  if position < invocation.arguments.length then
    pure { invocation with arguments := invocation.arguments.set position value }
  else throw (.plain ("missing argument " ++ natText position))

namespace Statement

variable (system : TypeSystem)

mutual

/-- Runs a statement; the result says what the code gives back, if this ended it. -/
def run (invocation : Invocation) : Statement → NativeRun (Invocation × Option HostValue)
  | .give value => do
      return (invocation, some (← value.evaluate system invocation))
  | .writeSlot name value => do
      let value ← value.evaluate system invocation
      return (← invocation.writeReceiverSlot system name value, none)
  | .writeStatic name value => do
      let value ← value.evaluate system invocation
      invocation.writeStaticSlot name value
      return (invocation, none)
  | .writeArgument position value => do
      let value ← value.evaluate system invocation
      return (← invocation.writeArgument position value, none)
  | .raise message stackTrace => throw ⟨message, stackTrace⟩
  | .branch condition onTrue onFalse => do
      match ← condition.evaluate system invocation with
      | .boolean true => runAll invocation onTrue
      | _ => runAll invocation onFalse

/-- Runs statements in order until one ends the code. -/
def runAll (invocation : Invocation) : List Statement → NativeRun (Invocation × Option HostValue)
  | [] => pure (invocation, none)
  | statement :: rest => do
      match ← run invocation statement with
      | (invocation, some value) => return (invocation, some value)
      | (invocation, none) => runAll invocation rest

end

/-- The native body that statements make; code that gives nothing back gives null. -/
def toBody (code : List Statement) : NativeBody := fun system invocation => do
  let (invocation, value) ← runAll system invocation code
  return invocation.complete (value.getD .null)

end Statement

end ScriptBridge
