import ScriptBridge.Host.TypeSystem

/-!
# Declaring types

The declarations that types start from, and adding members to them. Properties and events come with
the accessor methods that reflection shows for them, and with the hidden fields
that keep their values.
-/

namespace ScriptBridge

/-- A visible instance method with a name and a body and nothing else. -/
def MethodDef.named (name : String) (body : MethodBody) : MethodDef where
  name := name
  isStatic := false
  isSpecial := false
  visibility := .visible
  isExtension := false
  parameters := []
  returns := none
  generics := []
  body := body

def Parameter.plain (name : String) (type : TypeRef) : Parameter := ⟨name, .host type, .byValue, false⟩

/-- A visible instance field that can be written. -/
def FieldDef.named (name : String) (type : TypeRef) (initial : HostValue) : FieldDef where
  name := name
  type := type
  isStatic := false
  isReadonly := false
  isLiteral := false
  visibility := .visible
  initial := initial

/-- A hidden field that keeps the value of a property or event. -/
def FieldDef.backing (name : String) (type : TypeRef) (isStatic : Bool) (initial : HostValue) : FieldDef :=
  { FieldDef.named name type initial with isStatic := isStatic, visibility := .hidden }

/-- The field as a static one that is a literal. -/
def FieldDef.asLiteral (field : FieldDef) (value : HostValue) : FieldDef :=
  { field with isStatic := true, isLiteral := true, initial := value }

/-- The name of the field that keeps the value of a property without code of its own. -/
def backingName (property : String) : String := "<" ++ property ++ ">k__BackingField"

namespace TypeDef

def ofClass (space name : String) : TypeDef :=
  { TypeDef.named space name .reference with base := some .object }

def ofStruct (space name : String) : TypeDef :=
  { TypeDef.named space name .copied with base := some .valueType }

def ofDelegate (space name : String) : TypeDef :=
  { TypeDef.named space name .delegate with base := some .delegate }

def ofEnumeration (space name : String) (members : List (String × Int64)) : TypeDef :=
  { TypeDef.named space name (.enumeration members) with base := some .enumeration }

/-- An interface, which is abstract and has no base. -/
def ofInterface (space name : String) : TypeDef :=
  { TypeDef.named space name .interface with isAbstract := true }

variable (definition : TypeDef)

def addField (field : FieldDef) : TypeDef := { definition with fields := definition.fields ++ [field] }

def addMethods (methods : List MethodDef) : TypeDef :=
  { definition with methods := definition.methods ++ methods }

/-- Adds a constructor, which is a special instance method of a fixed name. -/
def addConstructor (constructor : MethodDef) : TypeDef :=
  { definition with
    constructors := definition.constructors ++
      [{ constructor with name := ".ctor", isSpecial := true, isStatic := false }] }

/-- Adds an operator, which is a special static method. -/
def addOperator (operator : MethodDef) : TypeDef :=
  definition.addMethods [{ operator with isStatic := true, isSpecial := true }]

/-- Adds a property with accessors for the bodies it has; with index parameters it is an indexer. -/
def addProperty (name : String) (type : TypeRef) (isStatic : Bool) (visibility : Visibility)
    (indexParameters : List Parameter) (getter setter : Option MethodBody) : TypeDef :=
  let accessor (start : String) (body : MethodBody) : MethodDef :=
    { MethodDef.named (start ++ name) body with
      isStatic := isStatic
      isSpecial := true
      visibility := visibility
      parameters := indexParameters }
  let getMethod := getter.map fun body =>
    { accessor "get_" body with returns := some (.host type) }
  let setMethod := setter.map fun body =>
    { accessor "set_" body with parameters := indexParameters ++ [.plain "value" type] }
  let withMethods := definition.addMethods (getMethod.toList ++ setMethod.toList)
  { withMethods with
    properties := definition.properties ++
      [⟨name, type, indexParameters, getMethod, setMethod, isStatic, visibility⟩] }

/-- Adds a property that reads and writes a hidden field. -/
def addAutoProperty (name : String) (type : TypeRef) (isStatic : Bool) (initial : HostValue) : TypeDef :=
  let field := backingName name
  (definition.addField (.backing field type isStatic initial)).addProperty name type isStatic .visible []
    (some (.readSlot field isStatic)) (some (.writeSlot field isStatic))

/-- Adds an event that keeps its handlers in a hidden field of its name. -/
def addEvent (name : String) (handlerType : TypeRef) (isStatic : Bool) (initial : HostValue) : TypeDef :=
  let accessor (start : String) (body : MethodBody) : MethodDef :=
    { MethodDef.named (start ++ name) body with
      isStatic := isStatic
      isSpecial := true
      parameters := [.plain "value" handlerType] }
  let add := accessor "add_" (.subscribe name isStatic)
  let remove := accessor "remove_" (.unsubscribe name isStatic)
  let withMethods := definition.addMethods [add, remove]
  { withMethods.addField (.backing name handlerType isStatic initial) with
    events := definition.events ++ [⟨name, handlerType, add, remove, isStatic, .visible⟩] }

end TypeDef

end ScriptBridge
