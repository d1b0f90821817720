import ScriptBridge.Proofs.Natives.Runners
import ScriptBridge.Proofs.Steps.Operations

/-!
# Operations with two runners

Members that run alike with two runners of native code make calls run alike, by
induction on how deep embedder functions may nest, and so operations.
-/

namespace ScriptBridge

open Bridge

namespace Host

variable {host : Host} {invariant : Invariant} {invoke other : Invoker}

theorem alike_walkBy
    (invokes : ∀ handle arguments, invariant.Alike (invoke handle arguments) (other handle arguments))
    (respects : host.Respects invariant) (current : ScriptValue) (segments : List String) :
    invariant.Alike (host.walkBy invoke current segments) (host.walkBy other current segments) := by
  induction segments generalizing current with
  | nil => exact .pure _
  | cons segment rest ih =>
      rw [walkBy, walkBy]
      split
      · exact .pure _
      · exact .bind (alike_indexBy invokes respects _ _) ih

theorem alike_answerScript {α : Type} {action other : Bridge ScriptError α} (answer : α → Answer)
    (alike : invariant.Alike action other) :
    invariant.Alike (answerScript action answer) (answerScript other answer) :=
  have adapted : invariant.Alike (ExceptT.adapt Failure.script action) (ExceptT.adapt Failure.script other) :=
    alike.adapt fun _ _ same => .inr (congrArg Failure.script same)
  adapted.map _

variable {runner : NativeRunner}

/-- Calls run alike with two runners if members do, where the callables of the context are known. -/
theorem alike_invokeWithinBy (respects : host.RespectsWrites invariant)
    (members : ∀ world, invariant.holds world → ∀ handle callable arguments,
      world.context.callable? handle = some callable →
      invariant.SameRun (exec (host.runMemberBy runner callable arguments) world)
        (exec (host.runMemberBy host.runner callable arguments) world))
    (depth : Nat) (handle : CallableHandle) (arguments : List ScriptValue) :
    invariant.Alike (host.invokeWithinBy runner depth handle arguments)
      (host.invokeWithinBy host.runner depth handle arguments) := by
  induction depth using Nat.strongRecOn generalizing handle arguments with
  | _ depth ih =>
      rw [invokeWithinBy, invokeWithinBy]
      intro world holds
      rw [exec_bind_of_ok (exec_context world), exec_bind_of_ok (exec_context world)]
      cases found : world.context.callable? handle with
      | none => exact Invariant.Alike.throw _ world holds
      | some callable =>
          cases callable with
          | placeholder member =>
              refine Invariant.Alike.after (respects.resolveMember _) (fun made after holds => ?_) world holds
              rw [exec_bind_of_ok (exec_context after), exec_bind_of_ok (exec_context after)]
              cases registered : after.context.callable? made with
              | none => exact Invariant.Alike.throw _ after holds
              | some callable => exact members after holds made callable arguments registered
          | embedder name body =>
              -- Functions of the embedder alone call again, with one level less to go.
              cases depth with
              | zero => exact Invariant.Alike.throw _ world holds
              | succ depth =>
                  have nested := alike_runProcedure (ih depth (Nat.lt_succ_self depth)) respects
                  exact Invariant.Alike.bind (nested _ _) (fun _ => .pure _) world holds
          | _ => exact members world holds handle _ arguments found

/-- Operations run alike with two runners if calls do. -/
theorem alike_performBy (respects : host.RespectsWrites invariant)
    (invokes : ∀ handle arguments,
      invariant.Alike (host.invokeBy runner handle arguments) (host.invokeBy host.runner handle arguments))
    {operation : Operation} (noCallable : ∀ callable, operation ≠ .register callable)
    (unbinds : ∀ type, operation = .unbind type →
      invariant.KeptBy (Host.unbind type : Bridge BindError Bool)) :
    invariant.Alike (host.performBy runner operation) (host.performBy host.runner operation) := by
  have asIs := respects.perform operation (fun callable same => absurd same (noCallable callable)) unbinds
  cases operation with
  | global path =>
      exact alike_answerScript _ (.after .context fun _ => alike_walkBy invokes respects.toRespects _ _)
  | index target key => exact alike_answerScript _ (alike_indexBy invokes respects.toRespects _ _)
  | assign target key value => exact alike_answerScript _ (alike_assignBy invokes respects _ _ _)
  | call function arguments => exact alike_answerScript _ (alike_callBy invokes _ _)
  | construct function arguments => exact alike_answerScript _ (alike_constructBy invokes _ _)
  | invokeMember target name arguments =>
      exact alike_answerScript _ (alike_invokeMemberBy invokes respects.toRespects _ _ _)
  | operate operator left right => exact alike_answerScript _ (alike_operateBy invokes _ _ _)
  | text value => exact alike_answerScript _ (alike_textBy invokes respects.toRespects _)
  | invokeDelegate delegate arguments =>
      refine alike_answerScript _ (.after ?_ fun values => alike_callTargets invokes _ _)
      exact .mapM _ fun value _ => respects.push value
  | _ => exact .of_keptBy asIs

end Host

end ScriptBridge
