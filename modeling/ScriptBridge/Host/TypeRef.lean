/-!
# Type references

A host type is named by its place in the system of declared types; an array
type is named by its element type. Equality of references is identity of types.
-/

namespace ScriptBridge

/-- A host type: one of the declared types, or the array type of an element type. -/
inductive TypeRef where
  | declared (index : Nat)
  | array (element : TypeRef)
deriving DecidableEq, Hashable, Inhabited

namespace TypeRef

/-- The number of types that every type system starts with. -/
def coreCount : Nat := 14

def object : TypeRef := .declared 0

/-- `System.ValueType`, the base of the types whose values are copied. -/
def valueType : TypeRef := .declared 1

def enumeration : TypeRef := .declared 2

/-- `System.Delegate`, the base of function types. -/
def delegate : TypeRef := .declared 3

def arrayBase : TypeRef := .declared 4

/-- `System.Type`, the type of types as values. -/
def typeType : TypeRef := .declared 5

def void : TypeRef := .declared 6

def string : TypeRef := .declared 7

def boolean : TypeRef := .declared 8

def char : TypeRef := .declared 9

def int32 : TypeRef := .declared 10

def int64 : TypeRef := .declared 11

def single : TypeRef := .declared 12

def double : TypeRef := .declared 13

def element? : TypeRef → Option TypeRef
  | .declared _ => none
  | .array element => some element

def isArray (type : TypeRef) : Bool := type.element?.isSome

/--
A height that drops from a type to every type it is built on: later declared
types stand higher, and array types stand between the core types and the rest.
-/
def rank : TypeRef → Nat
  | .declared index => 2 * index
  | .array _ => 2 * coreCount - 1

/-- The words for the core types, in the order of their references. -/
def coreWords : List String :=
  ["object", "value_type", "enum", "delegate", "array", "type", "void", "string", "boolean", "char",
    "int32", "int64", "single", "double"]

def ofCoreWord? (word : String) : Option TypeRef := (coreWords.idxOf? word).map .declared

/-- The type that a text names when it is read from its end. -/
def ofReversed? (known? : String → Option TypeRef) : List Char → Option TypeRef
  | ']' :: '[' :: rest =>
      (known? (String.ofList (rest.reverse ++ ['[', ']']))).or ((ofReversed? known? rest).map .array)
  | characters => known? (String.ofList characters.reverse)

/--
The type that a text names: one with a known name, a core type by its word, or,
with brackets after the text of its element type, an array type.
-/
def ofText? (known? : String → Option TypeRef) (text : String) : Option TypeRef :=
  ofReversed? (fun name => (known? name).or (ofCoreWord? name)) text.toList.reverse

end TypeRef

end ScriptBridge
