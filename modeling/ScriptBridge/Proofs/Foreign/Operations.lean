import ScriptBridge.Context.Operation
import ScriptBridge.Proofs.Foreign.Calls
import ScriptBridge.Proofs.Steps.Operations

/-!
# What scripts ask for, seen without keys of foreign proxies

Two uses of a context that differ in keys of proxies that other contexts made have the same
outcome, and leave worlds that differ in such keys at most. Equality of values is left out,
as it compares keys. So are calls of functions of the embedder that look at keys.
-/

namespace ScriptBridge

open Bridge

variable {swap : KeySwap}

/-- Requests of scripts that differ in keys of foreign proxies at most; comparing for equality is not among them. -/
inductive Operation.Resembles (swap : KeySwap) : Operation → Operation → Prop
  | index {target targetTwin key keyTwin : ScriptValue} (targets : target.Resembles swap targetTwin)
      (keys : key.Resembles swap keyTwin) : Resembles swap (.index target key) (.index targetTwin keyTwin)
  | assign {target targetTwin key keyTwin value twin : ScriptValue} (targets : target.Resembles swap targetTwin)
      (keys : key.Resembles swap keyTwin) (values : value.Resembles swap twin) :
      Resembles swap (.assign target key value) (.assign targetTwin keyTwin twin)
  | call {function functionTwin : ScriptValue} {arguments twins : List ScriptValue}
      (functions : function.Resembles swap functionTwin) (passed : ResembleAll swap arguments twins) :
      Resembles swap (.call function arguments) (.call functionTwin twins)
  | construct {function functionTwin : ScriptValue} {arguments twins : List ScriptValue}
      (functions : function.Resembles swap functionTwin) (passed : ResembleAll swap arguments twins) :
      Resembles swap (.construct function arguments) (.construct functionTwin twins)
  | invokeMember {target targetTwin : ScriptValue} (name : String) {arguments twins : List ScriptValue}
      (targets : target.Resembles swap targetTwin) (passed : ResembleAll swap arguments twins) :
      Resembles swap (.invokeMember target name arguments) (.invokeMember targetTwin name twins)
  | operate {operator : Operator} {left leftTwin right rightTwin : ScriptValue} (notEquality : operator ≠ .eq)
      (lefts : left.Resembles swap leftTwin) (rights : right.Resembles swap rightTwin) :
      Resembles swap (.operate operator left right) (.operate operator leftTwin rightTwin)
  | text {value twin : ScriptValue} (values : value.Resembles swap twin) : Resembles swap (.text value) (.text twin)
  | release {value twin : ScriptValue} (values : value.Resembles swap twin) :
      Resembles swap (.release value) (.release twin)

/--
What is called is harmless: members, constructors, and functions of the embedder that leave keys of foreign
proxies alone. A member that is called by name is looked up first.
-/
def Operation.Contained (host : Host) (swap : KeySwap) (world : World) : Operation → Prop
  | .call function _ => world.context.Harmless swap function
  | .invokeMember target name _ =>
      ∀ function middle, exec (host.index target (.string name)) world = (.ok function, middle) →
        middle.context.Harmless swap function
  | _ => True

/-- The second answer is the first, or has values that resemble those of the first. -/
inductive Answer.Resembles (swap : KeySwap) : Answer → Answer → Prop
  | same (answer : Answer) : Resembles swap answer answer
  | value {value twin : ScriptValue} (values : value.Resembles swap twin) : Resembles swap (.value value) (.value twin)
  | values {values twins : List ScriptValue} (resemble : ResembleAll swap values twins) :
      Resembles swap (.values values) (.values twins)

/-- Both runs failed in the same way or answered alike, in worlds that resemble each other. -/
structure Answer.Alike (swap : KeySwap) (run other : Except Failure Answer × World) : Prop where
  worlds : run.2.Resembles swap other.2
  answers : Except.Related (Answer.Resembles swap) run.1 other.1

theorem Answer.Alike.refl {run : Except Failure Answer × World} (tag : run.2.context.cache.tag = swap.own) :
    Answer.Alike swap run run := by
  rcases run with ⟨result, last⟩
  refine ⟨.refl tag, ?_⟩
  cases result with
  | error failure => exact .error failure
  | ok answer => exact .ok (.same answer)

namespace Host

variable {host : Host} {world : World}

/-- What scripts are answered resembles if what they caused does. -/
theorem endsAlike_answerScript {α β : Type} {related : α → β → Prop} {action : Bridge ScriptError α}
    {other : Bridge ScriptError β} {answer : α → Answer} {otherAnswer : β → Answer}
    (alike : EndsAlike swap related world (exec action world) (exec other world))
    (answers : ∀ value otherValue, related value otherValue → (answer value).Resembles swap (otherAnswer otherValue)) :
    Answer.Alike swap (exec (answerScript action answer) world) (exec (answerScript other otherAnswer) world) := by
  have ends := EndsAlike.map (alike.adapt Failure.script) answers
  exact ⟨ends.worlds, ends.results⟩

theorem tag_perform (consistent : world.context.cache.Consistent) (operation : Operation) :
    (exec (host.perform operation) world).2.context.cache.tag = world.context.cache.tag := by
  rcases requests_of_steps (@steps_perform host operation world) with ⟨requests, reached⟩
  rw [reached]
  exact (IdentityCache.succeeds_afterAll consistent requests).tag_eq

/-- Where all functions of the embedder are discreet, nothing can be called that is not. -/
theorem contained_of_discreetEmbedders (wired : world.context.Wired host.system)
    (own : world.context.cache.tag = swap.own) (discreet : world.context.DiscreetEmbedders swap)
    (operation : Operation) :
    operation.Contained host swap world := by
  cases operation with
  | call function arguments => exact Context.harmless_of_discreetEmbedders discreet function
  | invokeMember target name arguments =>
      intro function middle run
      have invokes := @discreet_invokeWithin swap host host.callDepth
      have looked := (endsAlike_indexBy invokes (.refl own) wired (.same target) (.same (.string name))).embedders
      have adds : world.context.AddsNoEmbedder (exec (host.index target (.string name)) world).2.context := looked
      rw [run] at adds
      exact Context.harmless_of_discreetEmbedders (adds.discreetEmbedders discreet) function
  | _ => trivial

/-- The same value has the same text, and a proxy that another context made has none. -/
theorem alike_text (consistent : world.context.cache.Consistent) (own : world.context.cache.tag = swap.own)
    {value twin : ScriptValue} (values : value.Resembles swap twin) :
    Answer.Alike swap (exec (host.perform (.text value)) world) (exec (host.perform (.text twin)) world) := by
  cases values with
  | same => exact .refl ((tag_perform consistent _).trans own)
  | @foreign key other type tag given =>
      have elsewhere : tag ≠ world.context.cache.tag := own ▸ swap.elsewhere given
      have refused (key : ProxyKey) :
          exec (host.text (.proxy ⟨key, type, tag⟩)) world = (.error (.staleProxy (host.fullName type)), world) := by
        simp only [text, textBy]
        rw [exec_bind_of_error (exec_indexBy_foreign elsewhere)]
      have alike : EndsAlike swap Eq world (exec (host.text (.proxy ⟨key, type, tag⟩)) world)
          (exec (host.text (.proxy ⟨other, type, tag⟩)) world) := by
        rw [refused, refused]
        exact .throw (.refl own) _
      exact endsAlike_answerScript alike fun text _ same => same ▸ .same (.text text)

/-- A request and one that resembles it are answered alike. -/
theorem alike_perform (wired : world.context.Wired host.system) (consistent : world.context.cache.Consistent)
    (own : world.context.cache.tag = swap.own) {operation other : Operation}
    (operations : operation.Resembles swap other) (contained : operation.Contained host swap world) :
    Answer.Alike swap (exec (host.perform operation) world) (exec (host.perform other) world) := by
  -- both runs start in the same world
  have worlds := World.Resembles.refl own
  have invokes := @discreet_invokeWithin swap host host.callDepth
  cases operations with
  | index targets keys =>
      exact endsAlike_answerScript (endsAlike_indexBy invokes worlds wired targets keys) fun _ _ => .value
  | assign targets keys values =>
      exact endsAlike_answerScript (endsAlike_assignBy invokes worlds wired targets keys values) fun _ _ _ => .same _
  | call functions passed =>
      exact endsAlike_answerScript (endsAlike_callBy invokes worlds wired passed functions contained) fun _ _ => .values
  | construct functions passed =>
      exact endsAlike_answerScript (endsAlike_constructBy invokes worlds wired passed functions) fun _ _ => .values
  | invokeMember name targets passed =>
      exact endsAlike_answerScript (endsAlike_invokeMemberBy invokes worlds wired passed targets name contained)
        fun _ _ => .values
  | operate notEquality lefts rights =>
      exact endsAlike_answerScript (endsAlike_operateBy invokes worlds wired notEquality lefts rights) fun _ _ => .value
  | release values =>
      exact endsAlike_answerScript (mirrors_release values _ _ worlds)
        fun released _ same => same ▸ .same (.truth released)
  | text values => exact alike_text consistent own values

end Host

end ScriptBridge
