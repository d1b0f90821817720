import ScriptBridge.Proofs.Host.RuntimeTypes

/-!
# Receivers

What takes the place of a receiver that is a shared instance is never a copy: a
slot of a shared instance is written in the store, and only copies come back
changed. The code of methods keeps to that if the native bodies do.
-/

namespace ScriptBridge

/-- A slot that is written gives back a copy only of a copy. -/
theorem HostStore.isCopied_of_writeSlot? {store later : HostStore} {target written value : HostValue} {name : String}
    (wrote : store.writeSlot? target name value = some (written, later)) (copied : written.isCopied = true) :
    target.isCopied = true := by
  cases target with
  | copied copy => rfl
  | object reference =>
      rcases Option.map_eq_some_iff.mp wrote with ⟨object, -, final⟩
      rcases Prod.mk.inj final with ⟨rfl, -⟩
      exact copied
  | _ => cases wrote

theorem HostStore.isCopied_of_writeField? {store later : HostStore} {field : Field} {target written value : HostValue}
    (wrote : store.writeField? field (some target) value = some (some written, later))
    (copied : written.isCopied = true) : target.isCopied = true := by
  rw [writeField?] at wrote
  split at wrote
  · rcases Prod.mk.inj (Option.some.inj wrote) with ⟨same, -⟩
    exact Option.some.inj same ▸ copied
  · rcases Option.bind_eq_some_iff.mp wrote with ⟨before, handed, rest⟩
    rcases Option.some.inj handed with rfl
    rcases Option.bind_eq_some_iff.mp rest with ⟨⟨after, changed⟩, slot, final⟩
    rcases Prod.mk.inj (Option.some.inj final) with ⟨same, -⟩
    exact isCopied_of_writeSlot? slot (Option.some.inj same ▸ copied)

namespace NativeRun

variable {α β : Type} {receiver : Option HostValue} {store : HostStore}

/-- Native code leaves a copy as its receiver only if it was handed one. -/
def KeepsCopies (code : NativeRun α) (receiver : Option HostValue) (left : α → Option HostValue)
    (store : HostStore) : Prop :=
  ∀ result before written, (exec code store).1 = .ok result → receiver = some before →
    left result = some written → written.isCopied = true → before.isCopied = true

theorem keepsCopies_throw (exception : HostException) (left : α → Option HostValue) :
    KeepsCopies (throw exception) receiver left store :=
  fun _ _ _ impossible => by cases impossible

theorem keepsCopies_pure {left : α → Option HostValue} {result : α} (same : left result = receiver) :
    KeepsCopies (pure result) receiver left store := by
  intro found before written given handed leaves copied
  rcases Except.ok.inj given with rfl
  rw [same, handed] at leaves
  rcases Option.some.inj leaves with rfl
  exact copied

theorem KeepsCopies.after {code : NativeRun α} {next : α → NativeRun β} {left : β → Option HostValue}
    (rest : ∀ value after, KeepsCopies (next value) receiver left after) :
    KeepsCopies (code >>= next) receiver left store := by
  rw [KeepsCopies, exec_bind]
  cases run : exec code store with
  | mk result after =>
      cases result with
      | error exception => exact fun _ _ _ impossible => by cases impossible
      | ok value => exact rest value after

theorem KeepsCopies.finish {code : NativeRun α} {left : α → Option HostValue} {final : β → Option HostValue}
    (keeps : KeepsCopies code receiver left store) (last : α → β) (same : ∀ value, final (last value) = left value) :
    KeepsCopies (code >>= fun value => pure (last value)) receiver final store := by
  rw [KeepsCopies, exec_bind]
  cases run : exec code store with
  | mk result after =>
      cases result with
      | error exception => exact fun _ _ _ impossible => by cases impossible
      | ok value =>
          intro result before written given handed leaves
          rcases Except.ok.inj given with rfl
          rw [same] at leaves
          exact keeps value before written (by rw [run]) handed leaves

end NativeRun

open NativeRun

theorem Invocation.keepsCopies_writeSlot (system : TypeSystem) (invocation : Invocation) (store : HostStore)
    (name : String) (isStatic : Bool) (value : HostValue) :
    KeepsCopies (invocation.writeSlot system name isStatic value) invocation.receiver (·.receiver) store := by
  cases isStatic with
  | true => exact .after fun _ _ => keepsCopies_pure rfl
  | false =>
      change KeepsCopies (invocation.writeReceiverSlot system name value) _ _ _
      rw [writeReceiverSlot, KeepsCopies, exec_get_bind]
      split
      next written changed wrote =>
        rcases Option.bind_eq_some_iff.mp wrote with ⟨target, handed, slot⟩
        intro result before left given received leaves copied
        rcases Except.ok.inj given with rfl
        rcases Option.some.inj (handed.symm.trans received) with rfl
        rcases Option.some.inj leaves with rfl
        exact HostStore.isCopied_of_writeSlot? slot copied
      next => exact keepsCopies_throw _ _

/-- A native body that leaves a copy as its receiver only if it was handed one. -/
def NativeBody.KeepsCopies (code : NativeBody) : Prop :=
  ∀ system invocation store,
    NativeRun.KeepsCopies (code system invocation) invocation.receiver (·.receiver) store

namespace MethodBody

theorem keepsCopies_changeHandler (system : TypeSystem) (invocation : Invocation) (store : HostStore)
    (field : String) (isStatic : Bool) (change : HostValue → Delegate → HostValue) :
    NativeRun.KeepsCopies (invocation.changeHandler system field isStatic change) invocation.receiver
      (·.receiver) store := by
  refine .after fun handler after => ?_
  split
  · refine .after fun current after => ?_
    exact (invocation.keepsCopies_writeSlot system after field isStatic _).finish _ fun _ => rfl
  · exact keepsCopies_pure rfl
  · exact .after fun _ _ => keepsCopies_throw _ _

/-- The code of methods leaves copies only for copies if the native bodies do. -/
theorem keepsCopies {natives : List NativeBody} (bodies : ∀ code ∈ natives, code.KeepsCopies)
    (body : MethodBody) (system : TypeSystem) (invocation : Invocation) (store : HostStore) :
    NativeRun.KeepsCopies (body.run natives system invocation) invocation.receiver (·.receiver) store := by
  cases body with
  | native index =>
      rw [run]
      split
      next code found => exact bodies code (List.mem_of_getElem? found) system invocation store
      next => exact keepsCopies_pure rfl
  | readSlot field isStatic => exact .after fun _ _ => keepsCopies_pure rfl
  | writeSlot field isStatic =>
      refine .after fun value after => ?_
      exact (invocation.keepsCopies_writeSlot system after field isStatic _).finish _ fun _ => rfl
  | subscribe field isStatic => exact keepsCopies_changeHandler _ _ _ _ _ _
  | unsubscribe field isStatic => exact keepsCopies_changeHandler _ _ _ _ _ _

end MethodBody

end ScriptBridge
