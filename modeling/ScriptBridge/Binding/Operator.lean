/-!
# Operators

The operators of scripts that host operator methods can provide.
-/

namespace ScriptBridge

/-- An operator of scripts. -/
inductive Operator where
  | add
  | sub
  | mul
  | div
  | mod
  | unm
  | eq
  | lt
  | le
  | bitAnd
  | bitOr
  | bitXor
  | bitNot
  | shiftLeft
  | shiftRight
deriving DecidableEq

namespace Operator

def all : List Operator :=
  [.add, .sub, .mul, .div, .mod, .unm, .eq, .lt, .le, .bitAnd, .bitOr, .bitXor, .bitNot,
    .shiftLeft, .shiftRight]

/-- The name of the host method that provides the operator. -/
def methodName : Operator → String
  | .add => "op_Addition"
  | .sub => "op_Subtraction"
  | .mul => "op_Multiply"
  | .div => "op_Division"
  | .mod => "op_Modulus"
  | .unm => "op_UnaryNegation"
  | .eq => "op_Equality"
  | .lt => "op_LessThan"
  | .le => "op_LessThanOrEqual"
  | .bitAnd => "op_BitwiseAnd"
  | .bitOr => "op_BitwiseOr"
  | .bitXor => "op_ExclusiveOr"
  | .bitNot => "op_OnesComplement"
  | .shiftLeft => "op_LeftShift"
  | .shiftRight => "op_RightShift"

/-- The name that scripts have for the operator. -/
def scriptName : Operator → String
  | .add => "__add"
  | .sub => "__sub"
  | .mul => "__mul"
  | .div => "__div"
  | .mod => "__mod"
  | .unm => "__unm"
  | .eq => "__eq"
  | .lt => "__lt"
  | .le => "__le"
  | .bitAnd => "__band"
  | .bitOr => "__bor"
  | .bitXor => "__bxor"
  | .bitNot => "__bnot"
  | .shiftLeft => "__shl"
  | .shiftRight => "__shr"

/-- The operator that a host method of the name provides. -/
def ofMethodName? (name : String) : Option Operator := all.find? fun operator => operator.methodName == name

def isUnary (operator : Operator) : Bool := operator = .unm ∨ operator = .bitNot

end Operator

end ScriptBridge
