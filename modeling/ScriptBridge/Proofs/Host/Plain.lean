import ScriptBridge.Proofs.Host.RuntimeTypes

/-!
# Values without delegates

A plain value has no delegate in it. The store of a host stays plain as long as
only plain values are written into it: reading gives plain values, and the code
of methods leaves plain values behind if the native bodies do.
-/

namespace ScriptBridge

/-- The value is no delegate, and neither is any value inside it. -/
inductive HostValue.Plain : HostValue → Prop
  | simple (value : HostValue) (noDelegate : value.asDelegate? = none) (noCopy : value.isCopied = false) :
      Plain value
  | copied (copy : Instance HostValue)
      (slots : ∀ name value, copy.storage.get? name = some value → Plain value)
      (elements : ∀ value ∈ copy.elements, Plain value) : Plain (.copied copy)

/-- All slots and elements of an instance are plain. -/
structure Instance.Plain (object : Instance HostValue) : Prop where
  slots : ∀ name value, object.storage.get? name = some value → value.Plain
  elements : ∀ value ∈ object.elements, value.Plain

/-- All instances and all static slots of a store are plain. -/
structure HostStore.Plain (store : HostStore) : Prop where
  objects : ∀ reference object, store.instance? reference = some object → object.Plain
  statics : ∀ type name value, store.staticSlot? type name = some value → value.Plain

/-- The initial values of all declared fields are plain. -/
def TypeSystem.Plain (system : TypeSystem) : Prop :=
  ∀ type, ∀ field ∈ (system.definition type).fields, field.initial.Plain

namespace HostValue

theorem Plain.asDelegate?_eq_none {value : HostValue} (plain : value.Plain) : value.asDelegate? = none := by
  cases plain with
  | simple _ noDelegate noCopy => exact noDelegate
  | copied copy slots elements => rfl

theorem plain_copied_iff {copy : Instance HostValue} : (copied copy).Plain ↔ copy.Plain := by
  constructor
  · intro plain
    cases plain with
    | simple _ noDelegate noCopy => exact Bool.noConfusion noCopy
    | copied copy slots elements => exact ⟨slots, elements⟩
  · intro plain
    exact .copied copy plain.slots plain.elements

theorem plain_null : null.Plain := .simple _ rfl rfl

end HostValue

/-- Writing a plain value keeps the slots of a storage plain. -/
theorem Storage.plain_insert {storage : Storage} {name : String} {value : HostValue} (plain : value.Plain)
    (slots : ∀ name value, storage.get? name = some value → value.Plain) :
    ∀ other found, (storage.insert name value).get? other = some found → found.Plain := by
  intro other found present
  rcases FinMap.eq_or_get?_of_insert present with ⟨-, rfl⟩ | earlier
  · exact plain
  · exact slots other found earlier

theorem Storage.plain_insertAll {pairs : List (String × HostValue)} {storage : Storage}
    (plain : ∀ pair ∈ pairs, pair.2.Plain)
    (slots : ∀ name value, storage.get? name = some value → value.Plain) :
    ∀ name value, (storage.insertAll pairs).get? name = some value → value.Plain := by
  induction pairs generalizing storage with
  | nil => exact slots
  | cons pair rest ih =>
      apply ih (fun other member => plain other (List.mem_cons_of_mem _ member))
      exact plain_insert (plain pair List.mem_cons_self) slots

namespace HostStore

variable {store later : HostStore}

theorem plain_empty : empty.Plain := by
  refine ⟨fun _ _ present => ?_, fun _ _ _ present => ?_⟩
  · simp [instance?, empty] at present
  · simp [staticSlot?, staticsOf, empty] at present

theorem Plain.allocate (plain : store.Plain) {object : Instance HostValue} (added : object.Plain) :
    (store.allocate object).2.Plain := by
  refine ⟨fun reference found present => ?_, plain.statics⟩
  rw [instance?_allocate] at present
  split at present
  · rcases Option.some.inj present with rfl
    exact added
  · exact plain.objects reference found present

theorem Plain.replace (plain : store.Plain) (reference : ObjectRef) {object : Instance HostValue}
    (replacement : object.Plain) : (store.replace reference object).Plain := by
  refine ⟨fun other found present => ?_, plain.statics⟩
  rw [instance?_replace] at present
  split at present
  · rcases Option.map_eq_some_iff.mp present with ⟨_, -, rfl⟩
    exact replacement
  · exact plain.objects other found present

theorem Plain.writeStatic (plain : store.Plain) (type : TypeRef) (name : String) {value : HostValue}
    (written : value.Plain) : (store.writeStatic type name value).Plain := by
  refine ⟨plain.objects, fun other otherName found present => ?_⟩
  rw [staticSlot?_writeStatic] at present
  split at present
  · rcases Option.some.inj present with rfl
    exact written
  · exact plain.statics other otherName found present

theorem Plain.slot? (plain : store.Plain) {target value : HostValue} {name : String} (holder : target.Plain)
    (found : store.slot? target name = some value) : value.Plain := by
  rcases Option.bind_eq_some_iff.mp found with ⟨object, present, slot⟩
  cases target with
  | object reference => exact (plain.objects reference object present).slots name value slot
  | copied copy =>
      rcases Option.some.inj present with rfl
      exact (HostValue.plain_copied_iff.mp holder).slots name value slot
  | _ => cases present

theorem Plain.writeSlot? (plain : store.Plain) {target value written : HostValue} {name : String}
    (holder : target.Plain) (content : value.Plain)
    (wrote : store.writeSlot? target name value = some (written, later)) : written.Plain ∧ later.Plain := by
  cases target with
  | object reference =>
      rcases Option.map_eq_some_iff.mp wrote with ⟨object, present, final⟩
      rcases Prod.mk.inj final with ⟨rfl, rfl⟩
      have before := plain.objects reference object present
      refine ⟨holder, plain.replace reference ⟨?_, before.elements⟩⟩
      exact Storage.plain_insert content before.slots
  | copied copy =>
      rcases Prod.mk.inj (Option.some.inj wrote) with ⟨rfl, rfl⟩
      have before := HostValue.plain_copied_iff.mp holder
      refine ⟨HostValue.plain_copied_iff.mpr ⟨?_, before.elements⟩, plain⟩
      exact Storage.plain_insert content before.slots
  | _ => cases wrote

theorem Plain.readField? (plain : store.Plain) {field : Field} {target : Option HostValue} {value : HostValue}
    (holder : ∀ receiver, target = some receiver → receiver.Plain)
    (found : store.readField? field target = some value) : value.Plain := by
  rw [HostStore.readField?] at found
  split at found
  · exact plain.statics _ _ _ found
  · rcases Option.bind_eq_some_iff.mp found with ⟨receiver, rfl, slot⟩
    exact plain.slot? (holder receiver rfl) slot

theorem Plain.writeField? (plain : store.Plain) {field : Field} {target written : Option HostValue}
    {value : HostValue} (holder : ∀ receiver, target = some receiver → receiver.Plain) (content : value.Plain)
    (wrote : store.writeField? field target value = some (written, later)) :
    (∀ receiver, written = some receiver → receiver.Plain) ∧ later.Plain := by
  rw [HostStore.writeField?] at wrote
  split at wrote
  · rcases Prod.mk.inj (Option.some.inj wrote) with ⟨rfl, rfl⟩
    exact ⟨holder, plain.writeStatic _ _ content⟩
  · rcases Option.bind_eq_some_iff.mp wrote with ⟨receiver, rfl, rest⟩
    rcases Option.bind_eq_some_iff.mp rest with ⟨⟨left, changed⟩, slot, final⟩
    rcases Prod.mk.inj (Option.some.inj final) with ⟨rfl, rfl⟩
    rcases plain.writeSlot? (holder receiver rfl) content slot with ⟨leftPlain, changedPlain⟩
    refine ⟨fun other same => ?_, changedPlain⟩
    rcases Option.some.inj same with rfl
    exact leftPlain

theorem Plain.elements (plain : store.Plain) (reference : ObjectRef) :
    ∀ value ∈ ((store.instance? reference).map (·.elements)).getD [], value.Plain := by
  cases present : store.instance? reference with
  | none => simp
  | some object => exact (plain.objects reference object present).elements

theorem Plain.writeElement? (plain : store.Plain) {reference : ObjectRef} {position : Nat}
    {value : HostValue} (content : value.Plain)
    (wrote : store.writeElement? reference position value = some later) : later.Plain := by
  rcases Option.bind_eq_some_iff.mp wrote with ⟨object, present, rest⟩
  split at rest
  · rcases Option.some.inj rest with rfl
    have before := plain.objects reference object present
    refine plain.replace reference ⟨before.slots, fun other member => ?_⟩
    rcases List.mem_or_eq_of_mem_set member with older | rfl
    · exact before.elements other older
    · exact content
  · cases rest

end HostStore

namespace TypeSystem

variable {system : TypeSystem}

/-- Only declared types have fields. -/
theorem plain_of_types (plain : ∀ definition ∈ system.types, ∀ field ∈ definition.fields, field.initial.Plain) :
    system.Plain := by
  intro type field declared
  cases type with
  | array element => cases declared
  | declared index =>
      rw [definition] at declared
      cases found : system.types[index]? with
      | none =>
          rw [found] at declared
          cases declared
      | some definition =>
          rw [found] at declared
          exact plain definition (List.mem_of_getElem? found) field declared

theorem Plain.newInstance (plain : system.Plain) (type : TypeRef) : (system.newInstance type).Plain := by
  refine ⟨?_, by simp [TypeSystem.newInstance]⟩
  suffices ∀ (ancestors : List TypeRef) (storage : Storage),
      (∀ name value, storage.get? name = some value → value.Plain) →
      ∀ name value, (ancestors.foldl (fun storage ancestor =>
        storage.insertAll (system.definition ancestor).instanceStorage.entries) storage).get? name = some value →
        value.Plain by
    exact this _ .empty (fun _ _ absent => by cases absent)
  intro ancestors
  induction ancestors with
  | nil => exact fun _ slots => slots
  | cons ancestor rest ih =>
      intro storage slots
      refine ih _ (Storage.plain_insertAll (fun pair member => ?_) slots)
      rcases List.mem_map.mp (FinMap.mem_entries_ofList member) with ⟨field, declared, rfl⟩
      exact plain ancestor field (List.mem_filter.mp declared).1

theorem Plain.defaultValue (plain : system.Plain) (type : TypeRef) : (system.defaultValue type).Plain := by
  rw [TypeSystem.defaultValue]
  split
  case h_7 => exact HostValue.plain_copied_iff.mpr (plain.newInstance type)
  all_goals exact .simple _ rfl rfl

end TypeSystem

namespace NativeRun

variable {α β : Type}

/-- Over a plain store, the code leaves a plain store and results of the given sort. -/
def KeepsPlain (code : NativeRun α) (good : α → Prop) : Prop :=
  ∀ store, store.Plain →
    (exec code store).2.Plain ∧ ∀ result, (exec code store).1 = .ok result → good result

theorem keepsPlain_pure {good : α → Prop} {result : α} (holds : good result) :
    KeepsPlain (pure result) good := by
  refine fun store plain => ⟨plain, fun found same => ?_⟩
  rcases Except.ok.inj same with rfl
  exact holds

theorem keepsPlain_throw (exception : HostException) (good : α → Prop) :
    KeepsPlain (throw exception) good :=
  fun _ plain => ⟨plain, fun _ impossible => by cases impossible⟩

theorem keepsPlain_get : KeepsPlain get HostStore.Plain := by
  refine fun store plain => ⟨plain, fun found same => ?_⟩
  rcases Except.ok.inj same with rfl
  exact plain

theorem KeepsPlain.bind {code : NativeRun α} {next : α → NativeRun β} {good : α → Prop} {final : β → Prop}
    (first : KeepsPlain code good) (second : ∀ value, good value → KeepsPlain (next value) final) :
    KeepsPlain (code >>= next) final := by
  intro store plain
  rcases first store plain with ⟨left, results⟩
  rw [exec_bind]
  cases run : exec code store with
  | mk result after =>
      rw [run] at left results
      cases result with
      | error exception => exact ⟨left, fun _ impossible => by cases impossible⟩
      | ok value => exact second value (results value rfl) after left

end NativeRun

/-- The receiver and the arguments of a call are plain. -/
structure Invocation.Plain (invocation : Invocation) : Prop where
  receiver : ∀ value, invocation.receiver = some value → value.Plain
  arguments : ∀ value ∈ invocation.arguments, value.Plain

/-- The result, the receiver and the arguments that native code leaves are plain. -/
structure Completion.Plain (completion : Completion) : Prop where
  result : completion.result.Plain
  receiver : ∀ value, completion.receiver = some value → value.Plain
  arguments : ∀ value ∈ completion.arguments, value.Plain

/-- A native body that makes no delegates: called over plain values, it leaves plain values. -/
def NativeBody.KeepsPlain (code : NativeBody) (system : TypeSystem) : Prop :=
  ∀ invocation, invocation.Plain → NativeRun.KeepsPlain (code system invocation) Completion.Plain

namespace NativeBody

open Classical in
/-- The code, but where it would leave a delegate, it fails instead and leaves the store as it was. -/
noncomputable def withoutDelegates (code : NativeBody) : NativeBody := fun system invocation store =>
  let run := NativeRun.exec (code system invocation) store
  if run.2.Plain ∧ ∀ completion, run.1 = .ok completion → completion.Plain then run
  else (.error (.plain "a delegate came up"), store)

theorem keepsPlain_withoutDelegates (code : NativeBody) (system : TypeSystem) :
    code.withoutDelegates.KeepsPlain system := by
  intro invocation _ store plain
  rw [NativeRun.exec, ExceptT.run, StateT.run]
  unfold withoutDelegates
  dsimp only
  split
  next leavesPlain => exact leavesPlain
  next => exact ⟨plain, fun _ impossible => by cases impossible⟩

end NativeBody

namespace Invocation

open NativeRun

variable {system : TypeSystem} {invocation : Invocation}

theorem Plain.complete (plain : invocation.Plain) {result : HostValue} (holds : result.Plain) :
    (invocation.complete result).Plain :=
  ⟨holds, plain.receiver, plain.arguments⟩

theorem Plain.argument (plain : invocation.Plain) (position : Nat) :
    NativeRun.KeepsPlain (invocation.argument position) HostValue.Plain := by
  rw [Invocation.argument]
  split
  next value found => exact keepsPlain_pure (plain.arguments value (List.mem_of_getElem? found))
  next => exact keepsPlain_throw _ _

theorem Plain.slot (plain : invocation.Plain) (name : String) (isStatic : Bool) :
    NativeRun.KeepsPlain (invocation.slot system name isStatic) HostValue.Plain := by
  cases isStatic with
  | true =>
      apply keepsPlain_get.bind
      intro store storePlain
      split
      next value found => exact keepsPlain_pure (storePlain.statics _ _ _ found)
      next => exact keepsPlain_throw _ _
  | false =>
      apply keepsPlain_get.bind
      intro store storePlain
      split
      next value found =>
        rcases Option.bind_eq_some_iff.mp found with ⟨receiver, handed, slot⟩
        exact keepsPlain_pure (storePlain.slot? (plain.receiver receiver handed) slot)
      next => exact keepsPlain_throw _ _

theorem Plain.writeSlot (plain : invocation.Plain) (name : String) (isStatic : Bool) {value : HostValue}
    (content : value.Plain) :
    NativeRun.KeepsPlain (invocation.writeSlot system name isStatic value) Invocation.Plain := by
  cases isStatic with
  | true =>
      refine fun store storePlain => ⟨storePlain.writeStatic _ _ content, fun result same => ?_⟩
      rcases Except.ok.inj same with rfl
      exact plain
  | false =>
      apply keepsPlain_get.bind
      intro store storePlain
      split
      next written changed wrote =>
        rcases Option.bind_eq_some_iff.mp wrote with ⟨receiver, handed, slot⟩
        rcases storePlain.writeSlot? (plain.receiver receiver handed) content slot with
          ⟨writtenPlain, changedPlain⟩
        refine fun _ _ => ⟨changedPlain, fun result same => ?_⟩
        rcases Except.ok.inj same with rfl
        refine ⟨fun other equal => ?_, plain.arguments⟩
        rcases Option.some.inj equal with rfl
        exact writtenPlain
      next => exact keepsPlain_throw _ _

/-- A plain argument is no handler, so that nothing is ever subscribed. -/
theorem Plain.changeHandler (plain : invocation.Plain) (field : String) (isStatic : Bool)
    (change : HostValue → Delegate → HostValue) :
    NativeRun.KeepsPlain (invocation.changeHandler system field isStatic change) Completion.Plain := by
  apply (plain.argument 0).bind
  intro handler handlerPlain
  split
  next => cases handlerPlain.asDelegate?_eq_none
  next => exact keepsPlain_pure (plain.complete HostValue.plain_null)
  next => exact keepsPlain_get.bind fun _ _ => keepsPlain_throw _ _

end Invocation

/-- The code of methods leaves plain values if the native bodies do. -/
theorem MethodBody.keepsPlain {natives : List NativeBody} {system : TypeSystem}
    (bodies : ∀ code ∈ natives, code.KeepsPlain system) (body : MethodBody) {invocation : Invocation}
    (plain : invocation.Plain) :
    NativeRun.KeepsPlain (body.run natives system invocation) Completion.Plain := by
  cases body with
  | native index =>
      rw [run]
      split
      next code found => exact bodies code (List.mem_of_getElem? found) invocation plain
      next => exact NativeRun.keepsPlain_pure (plain.complete HostValue.plain_null)
  | readSlot field isStatic =>
      exact (plain.slot field isStatic).bind fun _ holds => NativeRun.keepsPlain_pure (plain.complete holds)
  | writeSlot field isStatic =>
      apply (plain.argument 0).bind
      intro value holds
      apply (plain.writeSlot field isStatic holds).bind
      intro written writtenPlain
      exact NativeRun.keepsPlain_pure (writtenPlain.complete HostValue.plain_null)
  | subscribe field isStatic => exact plain.changeHandler field isStatic _
  | unsubscribe field isStatic => exact plain.changeHandler field isStatic _

end ScriptBridge
