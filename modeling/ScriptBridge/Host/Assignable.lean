import ScriptBridge.Host.TypeSystem

/-!
# Assignability

Which values a slot of a type can hold, judged by the run-time type of the
value alone.
-/

namespace ScriptBridge.TypeSystem

variable (system : TypeSystem)

/-- Whether a type is another type or descends from it. -/
def isSameOrSubclass (type of : TypeRef) : Bool := (system.lineage type).contains of

/-- Whether a type or one of its ancestors lists an interface. -/
def implementsInterface (type interface : TypeRef) : Bool :=
  (system.lineage type).any fun ancestor => (system.definition ancestor).interfaces.contains interface

/-- Whether a slot holds a value without looking inside array types: everything is an object. -/
def isDirectlyAssignable (source target : TypeRef) : Bool :=
  target == .object || system.isSameOrSubclass source target ||
    ((system.definition target).isInterface && system.implementsInterface source target)

/--
Whether a slot of the target type can hold a value of the source type. Arrays
follow their element types, unless the elements are copied values.
-/
def isAssignable (source target : TypeRef) : Bool :=
  system.isDirectlyAssignable source target ||
    match source, target with
    | .array sourceElement, .array targetElement =>
        !(system.definition sourceElement).isValueType && isAssignable sourceElement targetElement
    | _, _ => false

/-- Whether a slot of a type takes values of another type. -/
def accepts (target source : TypeRef) : Bool := system.isAssignable source target

end ScriptBridge.TypeSystem
