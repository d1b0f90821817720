import ScriptBridge.Host.Native

/-!
# Run-time types

The run-time type of a value never changes once the value has one: allocating
and writing keep it, and so does the code of methods if their native bodies do.
-/

namespace ScriptBridge

namespace HostStore

/-- Every value that has a run-time type in an earlier store has it in the later one. -/
def Extends (later earlier : HostStore) : Prop :=
  ∀ value type, earlier.typeOf? value = some type → later.typeOf? value = some type

variable {store later : HostStore}

theorem Extends.refl (store : HostStore) : store.Extends store := fun _ _ typed => typed

theorem Extends.trans {middle : HostStore} (second : later.Extends middle) (first : middle.Extends store) :
    later.Extends store :=
  fun value type typed => second value type (first value type typed)

/-- Only the types of shared instances depend on the store. -/
theorem extends_of_instances
    (kept : ∀ reference object, store.instance? reference = some object →
      ∃ newer, later.instance? reference = some newer ∧ newer.type = object.type) :
    later.Extends store := by
  intro value type typed
  cases value with
  | object reference =>
      rcases Option.map_eq_some_iff.mp typed with ⟨object, found, rfl⟩
      rcases kept reference object found with ⟨newer, laterFound, same⟩
      exact Option.map_eq_some_iff.mpr ⟨newer, laterFound, same⟩
  | _ => exact typed

theorem extends_of_objects (same : later.objects = store.objects) : later.Extends store :=
  extends_of_instances fun reference object found =>
    ⟨object, by rw [instance?, same]; exact found, rfl⟩

theorem extends_allocate (store : HostStore) (object : Instance HostValue) :
    (store.allocate object).2.Extends store := by
  refine extends_of_instances fun reference present found => ⟨present, ?_, rfl⟩
  rw [instance?_allocate]
  split
  next new =>
    have bound := (Array.getElem?_eq_some_iff.mp found).1
    rw [new] at bound
    simp [allocate] at bound
  next => exact found

theorem extends_replace {reference : ObjectRef} {object replacement : Instance HostValue}
    (found : store.instance? reference = some object) (same : replacement.type = object.type) :
    (store.replace reference replacement).Extends store := by
  apply extends_of_instances
  intro other present otherFound
  rw [instance?_replace]
  by_cases replaced : other = reference
  · subst replaced
    rcases Option.some.inj (found.symm.trans otherFound) with rfl
    exact ⟨replacement, by simp [found], same⟩
  · exact ⟨present, by rw [if_neg replaced, otherFound], rfl⟩

theorem extends_writeStatic (type : TypeRef) (name : String) (value : HostValue) :
    (store.writeStatic type name value).Extends store :=
  extends_of_objects rfl

/-- Writing a slot changes no type, and the target as written has the type of the target. -/
theorem extends_writeSlot? {target written value : HostValue} {name : String}
    (wrote : store.writeSlot? target name value = some (written, later)) :
    later.Extends store ∧
      ∀ type, store.typeOf? target = some type → later.typeOf? written = some type := by
  cases target with
  | object reference =>
      rcases Option.map_eq_some_iff.mp wrote with ⟨object, found, final⟩
      rcases Prod.mk.inj final with ⟨rfl, rfl⟩
      have extended := @extends_replace store reference object
        { object with storage := object.storage.insert name value } found rfl
      exact ⟨extended, extended _⟩
  | copied copy =>
      rcases Prod.mk.inj (Option.some.inj wrote) with ⟨rfl, rfl⟩
      exact ⟨.refl store, fun _ typed => typed⟩
  | _ => cases wrote

theorem extends_writeField? {field : Field} {target written : Option HostValue} {value : HostValue}
    (wrote : store.writeField? field target value = some (written, later)) :
    later.Extends store ∧
      ∀ before after, target = some before → written = some after →
        ∀ type, store.typeOf? before = some type → later.typeOf? after = some type := by
  rw [writeField?] at wrote
  split at wrote
  · rcases Prod.mk.inj (Option.some.inj wrote) with ⟨rfl, rfl⟩
    refine ⟨extends_writeStatic _ _ _, ?_⟩
    rintro before after rfl same type typed
    rcases Option.some.inj same with rfl
    exact extends_writeStatic _ _ _ _ _ typed
  · rcases Option.bind_eq_some_iff.mp wrote with ⟨before, rfl, rest⟩
    rcases Option.bind_eq_some_iff.mp rest with ⟨⟨after, changed⟩, slot, final⟩
    rcases Prod.mk.inj (Option.some.inj final) with ⟨rfl, rfl⟩
    rcases extends_writeSlot? slot with ⟨extended, kept⟩
    refine ⟨extended, ?_⟩
    rintro target written sameTarget sameWritten
    rcases Option.some.inj sameTarget with rfl
    rcases Option.some.inj sameWritten with rfl
    exact kept

theorem extends_writeElement? {reference : ObjectRef} {position : Nat} {value : HostValue}
    (wrote : store.writeElement? reference position value = some later) : later.Extends store := by
  rcases Option.bind_eq_some_iff.mp wrote with ⟨object, found, rest⟩
  split at rest
  · rcases Option.some.inj rest with rfl
    exact extends_replace found rfl
  · cases rest

end HostStore

namespace NativeRun

variable {α β : Type} {receiver : Option HostValue} {store : HostStore}

/-- The result of native code and the store it leaves. -/
def exec (code : NativeRun α) (store : HostStore) : Except HostException α × HostStore :=
  (code.run).run store

theorem exec_bind (code : NativeRun α) (next : α → NativeRun β) (store : HostStore) :
    exec (code >>= next) store =
      match exec code store with
      | (.ok value, after) => exec (next value) after
      | (.error exception, after) => (.error exception, after) := by
  simp only [exec, ExceptT.run_bind, StateT.run_bind]
  cases (code.run).run store with
  | mk result after => cases result <;> rfl

theorem exec_get_bind (next : HostStore → NativeRun β) (store : HostStore) :
    exec (get >>= next) store = exec (next store) store :=
  rfl

/-- Native code keeps all types, and the receiver that it leaves has the type of the one it was handed. -/
def KeepsTypes (code : NativeRun α) (receiver : Option HostValue) (left : α → Option HostValue)
    (store : HostStore) : Prop :=
  (exec code store).2.Extends store ∧
    ∀ result before written, (exec code store).1 = .ok result → receiver = some before →
      left result = some written →
      ∀ type, store.typeOf? before = some type → (exec code store).2.typeOf? written = some type

theorem keepsTypes_throw (exception : HostException) (left : α → Option HostValue) :
    KeepsTypes (throw exception) receiver left store :=
  ⟨.refl store, fun _ _ _ impossible => by cases impossible⟩

theorem keepsTypes_pure {left : α → Option HostValue} {result : α} (same : left result = receiver) :
    KeepsTypes (pure result) receiver left store := by
  refine ⟨.refl store, ?_⟩
  intro found before written given handed leaves type typed
  rcases Except.ok.inj given with rfl
  rw [same, handed] at leaves
  rcases Option.some.inj leaves with rfl
  exact typed

/-- Code that changes nothing can come first. -/
theorem KeepsTypes.after_reading {code : NativeRun α} {next : α → NativeRun β} {left : β → Option HostValue}
    (reads : (exec code store).2 = store)
    (rest : ∀ value, KeepsTypes (next value) receiver left store) :
    KeepsTypes (code >>= next) receiver left store := by
  rw [KeepsTypes, exec_bind]
  cases run : exec code store with
  | mk result after =>
      rw [run] at reads
      obtain rfl : after = store := reads
      cases result with
      | error exception => exact ⟨.refl after, fun _ _ _ impossible => by cases impossible⟩
      | ok value => exact rest value

/-- Code that leaves the receiver as another part left it can come last. -/
theorem KeepsTypes.finish {code : NativeRun α} {left : α → Option HostValue} {final : β → Option HostValue}
    (keeps : KeepsTypes code receiver left store) (last : α → β)
    (same : ∀ value, final (last value) = left value) :
    KeepsTypes (code >>= fun value => pure (last value)) receiver final store := by
  rcases keeps with ⟨extended, typed⟩
  rw [KeepsTypes, exec_bind]
  cases run : exec code store with
  | mk result after =>
      rw [run] at extended typed
      cases result with
      | error exception => exact ⟨extended, fun _ _ _ impossible => by cases impossible⟩
      | ok value =>
          refine ⟨extended, ?_⟩
          intro result before written given handed leaves
          rcases Except.ok.inj given with rfl
          rw [same] at leaves
          exact typed value before written rfl handed leaves

end NativeRun

namespace Invocation

open NativeRun

variable (system : TypeSystem) (invocation : Invocation) (store : HostStore)

theorem argument_reads (position : Nat) : (exec (invocation.argument position) store).2 = store := by
  rw [argument]
  split <;> rfl

theorem receiverSlot_reads (name : String) :
    (exec (invocation.receiverSlot system name) store).2 = store := by
  rw [receiverSlot, exec_get_bind]
  split <;> rfl

theorem staticSlot_reads (name : String) : (exec (invocation.staticSlot system name) store).2 = store := by
  rw [staticSlot, exec_get_bind]
  split <;> rfl

theorem slot_reads (name : String) (isStatic : Bool) :
    (exec (invocation.slot system name isStatic) store).2 = store := by
  cases isStatic with
  | true => exact staticSlot_reads system invocation store name
  | false => exact receiverSlot_reads system invocation store name

theorem keepsTypes_writeSlot (name : String) (isStatic : Bool) (value : HostValue) :
    KeepsTypes (invocation.writeSlot system name isStatic value) invocation.receiver (·.receiver) store := by
  cases isStatic with
  | true =>
      refine ⟨HostStore.extends_writeStatic _ _ _, ?_⟩
      intro result before written given handed leaves type typed
      rcases Except.ok.inj given with rfl
      rcases Option.some.inj (handed.symm.trans leaves) with rfl
      exact HostStore.extends_writeStatic _ _ _ _ _ typed
  | false =>
      change KeepsTypes (invocation.writeReceiverSlot system name value) _ _ _
      cases wrote : invocation.receiver.bind fun target => store.writeSlot? target name value with
      | none =>
          have run : exec (invocation.writeReceiverSlot system name value) store =
              (.error (.plain (system.fullName invocation.declaringType ++ " has no receiver for field " ++
                name)), store) := by
            rw [writeReceiverSlot, exec_get_bind, wrote]
            rfl
          rw [KeepsTypes, run]
          exact ⟨.refl store, fun _ _ _ impossible => by cases impossible⟩
      | some found =>
          rcases found with ⟨written, changed⟩
          have run : exec (invocation.writeReceiverSlot system name value) store =
              (.ok { invocation with receiver := some written }, changed) := by
            rw [writeReceiverSlot, exec_get_bind, wrote]
            rfl
          rcases Option.bind_eq_some_iff.mp wrote with ⟨target, handed, slot⟩
          rcases HostStore.extends_writeSlot? slot with ⟨extended, kept⟩
          rw [KeepsTypes, run]
          refine ⟨extended, ?_⟩
          intro result before left given received leaves type typed
          rcases Except.ok.inj given with rfl
          rcases Option.some.inj (handed.symm.trans received) with rfl
          rcases Option.some.inj leaves with rfl
          exact kept type typed

end Invocation

/--
A native body that changes the type of no instance: neither of the receiver that it is handed nor of
any other one in the store.
-/
def NativeBody.KeepsTypes (code : NativeBody) : Prop :=
  ∀ system invocation store,
    NativeRun.KeepsTypes (code system invocation) invocation.receiver (·.receiver) store

namespace MethodBody

open NativeRun

theorem keepsTypes_changeHandler (system : TypeSystem) (invocation : Invocation) (store : HostStore)
    (field : String) (isStatic : Bool) (change : HostValue → Delegate → HostValue) :
    NativeRun.KeepsTypes (invocation.changeHandler system field isStatic change) invocation.receiver
      (·.receiver) store := by
  refine .after_reading (invocation.argument_reads store 0) fun handler => ?_
  split
  · refine .after_reading (invocation.slot_reads system store field isStatic) fun current => ?_
    exact (invocation.keepsTypes_writeSlot system store field isStatic _).finish _ fun _ => rfl
  · exact keepsTypes_pure rfl
  · exact .after_reading rfl fun _ => keepsTypes_throw _ _

/-- The code of methods keeps types if the native bodies do. -/
theorem keepsTypes {natives : List NativeBody} (bodies : ∀ code ∈ natives, code.KeepsTypes)
    (body : MethodBody) (system : TypeSystem) (invocation : Invocation) (store : HostStore) :
    NativeRun.KeepsTypes (body.run natives system invocation) invocation.receiver (·.receiver) store := by
  cases body with
  | native index =>
      rw [run]
      split
      next code found => exact bodies code (List.mem_of_getElem? found) system invocation store
      next => exact keepsTypes_pure rfl
  | readSlot field isStatic =>
      exact .after_reading (invocation.slot_reads system store field isStatic) fun _ => keepsTypes_pure rfl
  | writeSlot field isStatic =>
      refine .after_reading (invocation.argument_reads store 0) fun value => ?_
      exact (invocation.keepsTypes_writeSlot system store field isStatic _).finish _ fun _ => rfl
  | subscribe field isStatic => exact keepsTypes_changeHandler _ _ _ _ _ _
  | unsubscribe field isStatic => exact keepsTypes_changeHandler _ _ _ _ _ _

end MethodBody

end ScriptBridge
