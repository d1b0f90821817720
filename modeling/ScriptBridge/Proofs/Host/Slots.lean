import ScriptBridge.Host.Store
import ScriptBridge.Proofs.Host.Lineage
import ScriptBridge.Proofs.Maps

/-!
# Slots of fields

A new instance has a slot for every field of its base chain, and no write takes a slot
away. A field that was written is read back as it was written; all other slots, all
other instances and all other statics stay as they were.
-/

namespace ScriptBridge

/-- Instances that differ at most in the slot of one name. -/
structure Instance.SameBut (name : String) (before after : Instance HostValue) : Prop where
  type : after.type = before.type
  elements : after.elements = before.elements
  slots : ∀ other, other ≠ name → after.storage.get? other = before.storage.get? other

theorem Instance.sameBut_write (object : Instance HostValue) (name : String) (value : HostValue) :
    object.SameBut name { object with storage := object.storage.insert name value } where
  type := rfl
  elements := rfl
  slots _ different := FinMap.get?_insert_of_ne _ _ different

namespace TypeSystem

variable {system : TypeSystem} {type : TypeRef} {field : Field}

/-- The slots of every type of the base chain are among those of a new instance. -/
theorem isSome_slot_newInstance {name : String} (inherits : field.owner ∈ system.lineage type)
    (own : ((system.definition field.owner).instanceStorage.get? name).isSome = true) :
    ((system.newInstance type).storage.get? name).isSome = true := by
  have merged : ∀ (chain : List TypeRef) (storage : Storage),
      field.owner ∈ chain ∨ (storage.get? name).isSome = true →
      ((chain.foldl (fun storage ancestor =>
        storage.insertAll (system.definition ancestor).instanceStorage.entries) storage).get? name).isSome = true := by
    intro chain
    induction chain with
    | nil => exact fun storage present => present.resolve_left List.not_mem_nil
    | cons ancestor rest ih =>
        intro storage present
        refine ih _ ?_
        rcases present with listed | present
        · rcases List.mem_cons.mp listed with rfl | later
          · rcases Option.isSome_iff_exists.mp own with ⟨value, found⟩
            exact .inr (FinMap.isSome_get?_insertAll_of_mem _ (FinMap.mem_entries_of_get? found))
          · exact .inl later
        · exact .inr (FinMap.isSome_get?_insertAll present _)
  exact merged _ _ (.inl (List.mem_reverse.mpr inherits))

theorem isSome_instanceStorage (declared : field ∈ system.fields type)
    (onInstance : field.definition.isStatic = false) :
    ((system.definition type).instanceStorage.get? field.definition.name).isSome = true := by
  rcases List.mem_map.mp declared with ⟨definition, listed, rfl⟩
  refine FinMap.isSome_get?_insertAll_of_mem _ (List.mem_map.mpr ⟨definition, List.mem_filter.mpr ⟨listed, ?_⟩, rfl⟩)
  simpa using onInstance

theorem isSome_staticStorage (declared : field ∈ system.fields type) (isStatic : field.definition.isStatic = true) :
    ((system.definition type).staticStorage.get? field.definition.name).isSome = true := by
  rcases List.mem_map.mp declared with ⟨definition, listed, rfl⟩
  exact FinMap.isSome_get?_insertAll_of_mem _
    (List.mem_map.mpr ⟨definition, List.mem_filter.mpr ⟨listed, isStatic⟩, rfl⟩)

end TypeSystem

namespace HostStore

variable {before after : HostStore} {field : Field} {converted : HostValue}

/-- What writing a field does: to the statics of its type, to a shared instance, or to a copy. -/
inductive Writes (field : Field) (converted : HostValue) (before : HostStore) :
    Option HostValue → Option HostValue → HostStore → Prop
  | onType (target : Option HostValue) (isStatic : field.definition.isStatic = true) :
      Writes field converted before target target
        (before.writeStatic field.owner field.definition.name converted)
  | onShared {reference : ObjectRef} {object : Instance HostValue} (onInstance : field.definition.isStatic = false)
      (present : before.instance? reference = some object) :
      Writes field converted before (some (.object reference)) (some (.object reference))
        (before.replace reference { object with storage := object.storage.insert field.definition.name converted })
  | onCopy (copy : Instance HostValue) (onInstance : field.definition.isStatic = false) :
      Writes field converted before (some (.copied copy))
        (some (.copied { copy with storage := copy.storage.insert field.definition.name converted })) before

theorem writes_of_writeField? {target written : Option HostValue}
    (wrote : before.writeField? field target converted = some (written, after)) :
    Writes field converted before target written after := by
  rw [writeField?] at wrote
  split at wrote
  next isStatic =>
    rcases Prod.mk.inj (Option.some.inj wrote) with ⟨rfl, rfl⟩
    exact .onType target isStatic
  next onInstance =>
    have onInstance := Bool.eq_false_iff.mpr onInstance
    rcases Option.bind_eq_some_iff.mp wrote with ⟨value, rfl, writing⟩
    rcases Option.bind_eq_some_iff.mp writing with ⟨⟨left, store⟩, slot, same⟩
    rcases Prod.mk.inj (Option.some.inj same) with ⟨rfl, rfl⟩
    cases value with
    | object reference =>
        rcases Option.map_eq_some_iff.mp slot with ⟨object, present, same⟩
        rcases Prod.mk.inj same with ⟨rfl, rfl⟩
        exact .onShared onInstance present
    | copied copy =>
        rcases Prod.mk.inj (Option.some.inj slot) with ⟨rfl, rfl⟩
        exact .onCopy copy onInstance
    | _ => cases slot

/-- What can be read can be written. -/
theorem exists_writes_of_readField? {target : Option HostValue} {current : HostValue}
    (stored : before.readField? field target = some current) (converted : HostValue) :
    ∃ written after, before.writeField? field target converted = some (written, after) ∧
      Writes field converted before target written after := by
  suffices wrote : (before.writeField? field target converted).isSome by
    rcases Option.isSome_iff_exists.mp wrote with ⟨⟨written, after⟩, same⟩
    exact ⟨written, after, same, writes_of_writeField? same⟩
  rw [readField?] at stored
  rw [writeField?]
  split at stored
  next isStatic => rw [if_pos isStatic]; rfl
  next onInstance =>
    rw [if_neg onInstance]
    rcases Option.bind_eq_some_iff.mp stored with ⟨value, rfl, present⟩
    rcases Option.bind_eq_some_iff.mp present with ⟨object, found, -⟩
    cases value with
    | object reference => simp [writeSlot?, show before.instance? reference = some object from found]
    | copied copy => rfl
    | _ => cases found

namespace Writes

variable {target written : Option HostValue} (writes : Writes field converted before target written after)

include writes

/-- A field is read back as it was written. -/
theorem readField? : after.readField? field written = some converted := by
  cases writes with
  | onType target isStatic => simp [HostStore.readField?, isStatic, staticSlot?_writeStatic]
  | onShared onInstance present =>
      simp [HostStore.readField?, onInstance, slot?, instanceOf?, instance?_replace, present]
  | onCopy copy onInstance => simp [HostStore.readField?, onInstance, slot?, instanceOf?]

/-- Of the statics, only that of a static field changes. -/
theorem staticSlot? (type : TypeRef) (name : String) : after.staticSlot? type name = before.staticSlot? type name ∨
    field.definition.isStatic = true ∧ type = field.owner ∧ name = field.definition.name := by
  cases writes with
  | onType target isStatic =>
      rw [staticSlot?_writeStatic]
      split
      next same => exact .inr ⟨isStatic, same⟩
      next => exact .inl rfl
  | onShared => exact .inl rfl
  | onCopy => exact .inl rfl

/-- Of the shared instances, only the target changes, and only in the slot of the field. -/
theorem instance? {reference : ObjectRef} {object : Instance HostValue}
    (present : before.instance? reference = some object) :
    ∃ later, after.instance? reference = some later ∧
      (later = object ∨ target = some (.object reference) ∧ object.SameBut field.definition.name later) := by
  cases writes with
  | onType target isStatic => exact ⟨object, present, .inl rfl⟩
  | @onShared other found onInstance presentToo =>
      rw [instance?_replace]
      split
      next same =>
        subst same
        obtain rfl := Option.some.inj (present.symm.trans presentToo)
        exact ⟨_, by rw [present]; rfl, .inr ⟨rfl, object.sameBut_write _ _⟩⟩
      next => exact ⟨object, present, .inl rfl⟩
  | onCopy => exact ⟨object, present, .inl rfl⟩

end Writes

end HostStore

end ScriptBridge
