import ScriptBridge.Host.Member

/-!
# The system of host types

The declared types in the order of their declaration. A type is built only on
types declared before it, so base chains and nesting are finite; array types
are not declared but exist for every element type.
-/

namespace ScriptBridge

/-- The built-in kinds of data. -/
inductive PrimitiveKind where
  | boolean
  | char
  | int32
  | int64
  | single
  | double
  | string
deriving DecidableEq

namespace PrimitiveKind

/-- The name of the kind, which is also the name of its type. -/
def name : PrimitiveKind → String
  | .boolean => "Boolean"
  | .char => "Char"
  | .int32 => "Int32"
  | .int64 => "Int64"
  | .single => "Single"
  | .double => "Double"
  | .string => "String"

/-- Whether values of the kind are whole numbers. -/
def isIntegral (kind : PrimitiveKind) : Bool := kind = .char ∨ kind = .int32 ∨ kind = .int64

/-- Whether values of the kind are floating-point numbers. -/
def isFloating (kind : PrimitiveKind) : Bool := kind = .single ∨ kind = .double

end PrimitiveKind

/-- What sort of type a type is. -/
inductive TypeKind where
  | reference
  | copied
  | interface
  | delegate
  | enumeration (members : List (String × Int64))
  | array
  | primitive (kind : PrimitiveKind)
deriving DecidableEq

/-- The declaration of a type. -/
structure TypeDef where
  space : String
  name : String
  /-- The names of the enclosing types, outermost first. -/
  enclosing : List String
  kind : TypeKind
  base : Option TypeRef
  interfaces : List TypeRef
  visibility : Visibility
  isAbstract : Bool
  isGenericDefinition : Bool
  isExtensionContainer : Bool
  fields : List FieldDef
  properties : List PropertyDef
  events : List EventDef
  methods : List MethodDef
  constructors : List MethodDef
  nested : List TypeRef

namespace TypeDef

/-- A visible type of the given kind with a name and nothing else. -/
def named (space name : String) (kind : TypeKind) : TypeDef where
  space := space
  name := name
  enclosing := []
  kind := kind
  base := none
  interfaces := []
  visibility := .visible
  isAbstract := false
  isGenericDefinition := false
  isExtensionContainer := false
  fields := []
  properties := []
  events := []
  methods := []
  constructors := []
  nested := []

instance : Inhabited TypeDef := ⟨.named "" "" .reference⟩

/-- The namespace, the enclosing names each before a plus sign, and the name. -/
def fullName (definition : TypeDef) : String :=
  (if definition.space.isEmpty then "" else definition.space ++ ".") ++
    String.join (definition.enclosing.map (· ++ "+")) ++ definition.name

/-- The types a type is built on: its base and its nested types. -/
def foundations (definition : TypeDef) : List TypeRef := definition.base.toList ++ definition.nested

/-- Whether every foundation stands lower than the type declared at the given index. -/
def FoundedBelow (definition : TypeDef) (index : Nat) : Prop :=
  ∀ foundation ∈ definition.foundations, foundation.rank < 2 * index

instance (definition : TypeDef) (index : Nat) : Decidable (definition.FoundedBelow index) :=
  inferInstanceAs (Decidable (∀ foundation ∈ definition.foundations, foundation.rank < 2 * index))

/-- Whether instances are handled by reference, among the kinds that constraints can name. -/
def isClass (definition : TypeDef) : Bool :=
  match definition.kind with
  | .reference | .delegate | .array | .primitive .string => true
  | _ => false

/-- Whether values of the type are copied and never null. -/
def isValueType (definition : TypeDef) : Bool :=
  match definition.kind with
  | .copied | .enumeration _ => true
  | .primitive kind => kind ≠ .string
  | _ => false

def isInterface (definition : TypeDef) : Bool := definition.kind = .interface

def isDelegate (definition : TypeDef) : Bool := definition.kind = .delegate

def isEnumeration (definition : TypeDef) : Bool :=
  match definition.kind with
  | .enumeration _ => true
  | _ => false

def primitive? (definition : TypeDef) : Option PrimitiveKind :=
  match definition.kind with
  | .primitive kind => some kind
  | _ => none

/-- The answers to the yes-or-no questions about a type, by name. -/
def traits (definition : TypeDef) : List (String × Bool) :=
  [ ("nested", !definition.enclosing.isEmpty),
    ("enum", definition.isEnumeration),
    ("delegate", definition.isDelegate),
    ("interface", definition.isInterface),
    ("class", definition.isClass),
    ("value_type", definition.isValueType) ]

def enumMembers (definition : TypeDef) : List (String × Int64) :=
  match definition.kind with
  | .enumeration members => members
  | _ => []

/-- The value of the first enumeration member of a name. -/
def enumValue? (definition : TypeDef) (member : String) : Option Int64 :=
  FinMap.lookup member definition.enumMembers

/-- The static slots at their initial values; of equal names the later field wins. -/
def staticStorage (definition : TypeDef) : Storage :=
  .ofList ((definition.fields.filter (·.isStatic)).map fun field => (field.name, field.initial))

/-- The instance slots that the type itself declares, at their initial values. -/
def instanceStorage (definition : TypeDef) : Storage :=
  .ofList ((definition.fields.filter (!·.isStatic)).map fun field => (field.name, field.initial))

end TypeDef

/-- The types that every type system starts with, in the order of their references. -/
def coreTypes : List TypeDef :=
  let system (name : String) (kind : TypeKind) (base : TypeRef) : TypeDef :=
    { TypeDef.named "System" name kind with base := some base }
  let abstractClass (name : String) (base : TypeRef) : TypeDef :=
    { system name .reference base with isAbstract := true }
  let primitive (kind : PrimitiveKind) (base : TypeRef) : TypeDef :=
    system kind.name (.primitive kind) base
  [ TypeDef.named "System" "Object" .reference,
    abstractClass "ValueType" .object,
    abstractClass "Enum" .valueType,
    abstractClass "Delegate" .object,
    abstractClass "Array" .object,
    abstractClass "Type" .object,
    system "Void" .copied .valueType,
    primitive .string .object,
    primitive .boolean .valueType,
    primitive .char .valueType,
    primitive .int32 .valueType,
    primitive .int64 .valueType,
    primitive .single .valueType,
    primitive .double .valueType ]

/-- The declared types, each built on earlier ones, the core types first. -/
structure TypeSystem where
  types : List TypeDef
  starts_with_core : TypeRef.coreCount ≤ types.length
  founded : ∀ index (bound : index < types.length), types[index].FoundedBelow index

namespace TypeSystem

def core : TypeSystem where
  types := coreTypes
  starts_with_core := by decide
  founded := by decide

/-- Adds a type built on the types present; otherwise there is no such system. -/
def declare? (system : TypeSystem) (definition : TypeDef) : Option (TypeRef × TypeSystem) :=
  if founded : definition.FoundedBelow system.types.length then
    some (.declared system.types.length,
      { types := system.types ++ [definition]
        starts_with_core := by
          have := system.starts_with_core
          simp
          omega
        founded := by
          intro index bound
          by_cases earlier : index < system.types.length
          · rw [List.getElem_append_left earlier]
            exact system.founded index earlier
          · have last : index = system.types.length := by simp at bound; omega
            subst last
            simpa using founded })
  else none

/-- The declaration behind a type; an array type is a class without members on the array base. -/
def definition (system : TypeSystem) : TypeRef → TypeDef
  | .declared index => system.types[index]?.getD default
  | .array element =>
      let inner := system.definition element
      { TypeDef.named inner.space (inner.name ++ "[]") .array with base := some .arrayBase }

variable (system : TypeSystem)

def fullName (type : TypeRef) : String := (system.definition type).fullName

def base? (type : TypeRef) : Option TypeRef := (system.definition type).base

/-- At most a given number of steps up the base chain. -/
def climb : Nat → TypeRef → List TypeRef
  | 0, _ => []
  | steps + 1, type =>
      match system.base? type with
      | none => []
      | some base => base :: climb steps base

/-- The base chain of a type from its direct base to the root. -/
def ancestors (type : TypeRef) : List TypeRef := system.climb type.rank type

def lineage (type : TypeRef) : List TypeRef := type :: system.ancestors type

def methods (type : TypeRef) : List Method :=
  (system.definition type).methods.mapIdx fun position definition =>
    ⟨type, .method position, definition⟩

def constructors (type : TypeRef) : List Method :=
  (system.definition type).constructors.mapIdx fun position definition =>
    ⟨type, .constructor position, definition⟩

def findMethod? (type : TypeRef) (name : String) : Option Method :=
  (system.methods type).find? (·.definition.name == name)

def fields (type : TypeRef) : List Field :=
  (system.definition type).fields.map fun definition => ⟨type, definition⟩

def findField? (type : TypeRef) (name : String) : Option Field :=
  (system.fields type).find? (·.definition.name == name)

/-- A new instance: the slots of the whole base chain, the root's first, at their initial values. -/
def newInstance (type : TypeRef) : Instance HostValue where
  type := type
  storage :=
    (system.lineage type).reverse.foldl
      (fun storage ancestor =>
        storage.insertAll (system.definition ancestor).instanceStorage.entries)
      .empty
  elements := []

/-- The value of a slot of a type before anything is written to it. -/
def defaultValue (type : TypeRef) : HostValue :=
  match (system.definition type).kind with
  | .primitive .boolean => .boolean false
  | .primitive .char => .char '\x00'
  | .primitive .int32 => .int32 0
  | .primitive .int64 => .int64 0
  | .primitive .single => .single .zero
  | .primitive .double => .double .zero
  | .copied => .copied (system.newInstance type)
  | .enumeration _ => .enumeration type 0
  | _ => .null

end TypeSystem

end ScriptBridge
