import ScriptBridge.Host.Store
import ScriptBridge.Number.Hexadecimal
import ScriptBridge.Number.Printed
import ScriptBridge.Text.Quoted

/-!
# Texts of host values

Two texts of a value: `show` spells the value out for a reader, one level deep
into shared instances and all the way into copies; `inspect` is the form that
error messages quote.
-/

namespace ScriptBridge.TypeSystem

variable (system : TypeSystem)

def sortedNames (names : List String) : List String :=
  (names.mergeSort fun left right => decide (left ≤ right)).eraseDups

/-- The full names of some types in order, each once. -/
def sortedFullNames (types : List TypeRef) : List String := sortedNames (types.map system.fullName)

/-- The names of the fields that a type or one of its ancestors declares, each once and in order. -/
def declaredNames (type : TypeRef) : List String :=
  sortedNames ((system.lineage type).flatMap fun ancestor =>
    (system.definition ancestor).fields.map (·.name))

/-- The slot texts of the declared fields, in order of their names. -/
def slotTexts (type : TypeRef) (slots : List (String × String)) : String :=
  ",".intercalate ((system.declaredNames type).filterMap fun name =>
    (FinMap.lookup name slots).map fun text => name ++ "=" ++ text)

def elementTexts (elements : List String) : String := "[" ++ ",".intercalate elements ++ "]"

variable (store : HostStore)

mutual

/-- The text of a value inside another: of a shared instance only its type is shown. -/
def showNested : HostValue → String
  | .null => "null"
  | .boolean value => "bool:" ++ (if value then "true" else "false")
  | .char value => "char:" ++ natText value.toNat
  | .int32 value => "i32:" ++ intText value.toInt
  | .int64 value => "i64:" ++ intText value.toInt
  | .single value => "f32:" ++ value.patternText
  | .double value => "f64:" ++ value.patternText
  | .string value => "str:" ++ value
  | .enumeration type value => "enum:" ++ system.fullName type ++ "=" ++ intText value.toInt
  | .type value => "type:" ++ system.fullName value
  | .delegate value =>
      "delegate:" ++ system.fullName value.type ++
        elementTexts (value.targets.map fun target => natText target.toNat)
  | .object reference =>
      "obj:" ++ ((store.instance? reference).map fun object => system.fullName object.type).getD ""
  | .copied ⟨type, ⟨entries⟩, elements⟩ =>
      "struct:" ++ system.fullName type ++ "\x7b" ++ system.slotTexts type (showEntries entries) ++ "\x7d" ++
        (if type.isArray then elementTexts (showElements elements) else "")

def showEntries : List (String × HostValue) → List (String × String)
  | [] => []
  | (name, value) :: rest => (name, showNested value) :: showEntries rest

def showElements : List HostValue → List String
  | [] => []
  | value :: rest => showNested value :: showElements rest

end

/-- The text of a value on its own: a shared instance is shown with its slots and elements. -/
def showValue (value : HostValue) : String :=
  match value with
  | .object reference =>
      match store.instance? reference with
      | some object =>
          "obj:" ++ system.fullName object.type ++ "\x7b" ++
            system.slotTexts object.type (system.showEntries store object.storage.entries) ++ "\x7d" ++
            (if object.type.isArray then elementTexts (system.showElements store object.elements) else "")
      | none => "obj:"
  | other => system.showNested store other

mutual

/-- The text in which an error message quotes a value: its kind and its content. -/
def inspect : HostValue → String
  | .null => "Null"
  | .boolean value => "Boolean(" ++ (if value then "true" else "false") ++ ")"
  | .char value => "Char(" ++ Text.quotedChar value ++ ")"
  | .int32 value => "Int32(" ++ intText value.toInt ++ ")"
  | .int64 value => "Int64(" ++ intText value.toInt ++ ")"
  | .single value => "Single(" ++ value.inspect ++ ")"
  | .double value => "Double(" ++ value.inspect ++ ")"
  | .string value => "String(" ++ Text.quoted value ++ ")"
  | .enumeration type value =>
      "Enum \x7b ty: " ++ system.fullName type ++ ", value: " ++ intText value.toInt ++ " \x7d"
  | .type value => "Type(" ++ system.fullName value ++ ")"
  | .delegate value =>
      "Delegate(Delegate \x7b ty: " ++ system.fullName value.type ++ ", targets: [" ++
        ", ".intercalate (value.targets.map fun target => natText target.toNat) ++ "] \x7d)"
  | .object reference =>
      "Object(" ++ ((store.instance? reference).map fun object => system.fullName object.type).getD "" ++ ")"
  | .copied ⟨type, ⟨entries⟩, elements⟩ =>
      "ValueType(Object \x7b description: " ++ system.fullName type ++
        ", storage: FieldStorage \x7b values: \x7b" ++ ", ".intercalate (inspectEntries entries) ++
        "\x7d \x7d, elements: [" ++ ", ".intercalate (inspectElements elements) ++ "] \x7d)"

def inspectEntries : List (String × HostValue) → List String
  | [] => []
  | (name, value) :: rest => (Text.quoted name ++ ": " ++ inspect value) :: inspectEntries rest

def inspectElements : List HostValue → List String
  | [] => []
  | value :: rest => inspect value :: inspectElements rest

end

end ScriptBridge.TypeSystem
