import ScriptBridge.Host.TypeSystem

/-!
# The host store

The mutable part of the host: the instances of reference types, and the static
slots of each type. The lemmas say what each reference and each static slot gives
after an allocation or a write.
-/

namespace ScriptBridge

/-- The instances by reference, and the static slots by type. -/
structure HostStore where
  objects : Array (Instance HostValue)
  statics : FinMap TypeRef Storage

namespace HostStore

def empty : HostStore := ⟨#[], .empty⟩

instance : Inhabited HostStore := ⟨empty⟩

def instance? (store : HostStore) (reference : ObjectRef) : Option (Instance HostValue) :=
  store.objects[reference.index]?

def allocate (store : HostStore) (object : Instance HostValue) : ObjectRef × HostStore :=
  (⟨store.objects.size⟩, { store with objects := store.objects.push object })

/-- Replaces the instance behind a reference. -/
def replace (store : HostStore) (reference : ObjectRef) (object : Instance HostValue) : HostStore :=
  { store with objects := store.objects.setIfInBounds reference.index object }

theorem instance?_allocate (store : HostStore) (object : Instance HostValue) (reference : ObjectRef) :
    (store.allocate object).2.instance? reference =
      if reference = (store.allocate object).1 then some object else store.instance? reference := by
  cases reference
  simp only [allocate, instance?, Array.getElem?_push, ObjectRef.mk.injEq]

theorem instance?_replace (store : HostStore) (reference other : ObjectRef) (object : Instance HostValue) :
    (store.replace reference object).instance? other =
      if other = reference then (store.instance? reference).map fun _ => object
      else store.instance? other := by
  cases reference
  cases other
  simp only [replace, instance?, ObjectRef.mk.injEq]
  grind

def staticsOf (store : HostStore) (type : TypeRef) : Storage :=
  (store.statics.get? type).getD .empty

def staticSlot? (store : HostStore) (type : TypeRef) (name : String) : Option HostValue :=
  (store.staticsOf type).get? name

def writeStatic (store : HostStore) (type : TypeRef) (name : String) (value : HostValue) : HostStore :=
  { store with statics := store.statics.insert type ((store.staticsOf type).insert name value) }

theorem staticSlot?_writeStatic (store : HostStore) (type other : TypeRef) (name otherName : String)
    (value : HostValue) :
    (store.writeStatic type name value).staticSlot? other otherName =
      if other = type ∧ otherName = name then some value else store.staticSlot? other otherName := by
  by_cases same : other = type
  · subst same
    simp [writeStatic, staticSlot?, staticsOf, FinMap.get?_insert]
  · simp [writeStatic, staticSlot?, staticsOf, FinMap.get?_insert, same]

/-- Gives the statics of a type their initial values. -/
def initializeStatics (store : HostStore) (type : TypeRef) (definition : TypeDef) : HostStore :=
  { store with statics := store.statics.insert type definition.staticStorage }

/-- The instance that a value is or refers to. -/
def instanceOf? (store : HostStore) : HostValue → Option (Instance HostValue)
  | .object reference => store.instance? reference
  | .copied copy => some copy
  | _ => none

/-- The value of an instance slot; only instances have slots. -/
def slot? (store : HostStore) (target : HostValue) (name : String) : Option HostValue :=
  (store.instanceOf? target).bind fun object => object.storage.get? name

/--
Writes an instance slot. A shared instance changes in the store, a copy changes
in the value that is returned; other values have nothing to write into.
-/
def writeSlot? (store : HostStore) (target : HostValue) (name : String) (value : HostValue) :
    Option (HostValue × HostStore) :=
  match target with
  | .object reference =>
      (store.instance? reference).map fun object =>
        (target, store.replace reference { object with storage := object.storage.insert name value })
  | .copied copy => some (.copied { copy with storage := copy.storage.insert name value }, store)
  | _ => none

/-- Whether an array instance has an element at a position; if so it is replaced. -/
def writeElement? (store : HostStore) (reference : ObjectRef) (position : Nat) (value : HostValue) :
    Option HostStore := do
  let object ← store.instance? reference
  if position < object.elements.length then
    some (store.replace reference { object with elements := object.elements.set position value })
  else none

/-- The run-time type of a value that carries one. -/
def carriedType? (store : HostStore) : HostValue → Option TypeRef
  | .object reference => (store.instance? reference).map (·.type)
  | .copied copy => some copy.type
  | .enumeration type _ => some type
  | .delegate delegate => some delegate.type
  | _ => none

/-- The run-time type of a value; null has none. -/
def typeOf? (store : HostStore) : HostValue → Option TypeRef
  | .null => none
  | .boolean _ => some .boolean
  | .char _ => some .char
  | .int32 _ => some .int32
  | .int64 _ => some .int64
  | .single _ => some .single
  | .double _ => some .double
  | .string _ => some .string
  | .type _ => some .typeType
  | other => store.carriedType? other

/-- A new array instance with the given elements. -/
def newArray (store : HostStore) (type : TypeRef) (elements : List HostValue) : HostValue × HostStore :=
  let (reference, store) := store.allocate ⟨type, .empty, elements⟩
  (.object reference, store)

/-- The value of a field; an instance field needs a target that has slots. -/
def readField? (store : HostStore) (field : Field) (target : Option HostValue) : Option HostValue :=
  if field.definition.isStatic then store.staticSlot? field.owner field.definition.name
  else target.bind fun value => store.slot? value field.definition.name

/-- Writes a field and returns the target as written, unless there is nothing to write into. -/
def writeField? (store : HostStore) (field : Field) (target : Option HostValue) (value : HostValue) :
    Option (Option HostValue × HostStore) :=
  if field.definition.isStatic then
    some (target, store.writeStatic field.owner field.definition.name value)
  else do
    let (written, store) ← store.writeSlot? (← target) field.definition.name value
    return (some written, store)

end HostStore

end ScriptBridge
