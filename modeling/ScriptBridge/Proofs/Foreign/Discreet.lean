import ScriptBridge.Proofs.Foreign.Members
import ScriptBridge.Proofs.Natives.Refused

/-!
# Functions that leave keys of foreign proxies alone

Functions of the embedder are handed what the script passed, proxies of other contexts
included, and could look at their keys. A function is discreet if it asks for the same
whichever of the keys it gets, and makes the same of what it is told. Calls that run no
functions of the embedder but discreet ones are safe to follow.
-/

namespace ScriptBridge

open Bridge

variable {swap : KeySwap}

/-- Procedures that ask for the same, with values that resemble each other, whatever they are told. -/
inductive Procedure.Resembles (swap : KeySwap) : Procedure → Procedure → Prop
  | finish : Resembles swap .finish .finish
  | fail (message : String) : Resembles swap (.fail message) (.fail message)
  | report (name : String) {arguments twins : List ScriptValue} {next nextTwin : Procedure}
      (passed : ResembleAll swap arguments twins) (rest : Resembles swap next nextTwin) :
      Resembles swap (.report name arguments next) (.report name twins nextTwin)
  | push {value twin : ScriptValue} {next nextTwin : Procedure} (values : value.Resembles swap twin)
      (rest : Resembles swap next nextTwin) : Resembles swap (.push value next) (.push twin nextTwin)
  | pushHost (value : HostValue) {next nextTwin : Procedure} (rest : Resembles swap next nextTwin) :
      Resembles swap (.pushHost value next) (.pushHost value nextTwin)
  | read (position : Nat) (type : TypeRef) {next nextTwin : HostValue → Procedure}
      (rest : ∀ value, Resembles swap (next value) (nextTwin value)) :
      Resembles swap (.read position type next) (.read position type nextTwin)
  | describe (value : HostValue) {next nextTwin : String → Procedure}
      (rest : ∀ text, Resembles swap (next text) (nextTwin text)) :
      Resembles swap (.describe value next) (.describe value nextTwin)
  | index {target targetTwin key keyTwin : ScriptValue} {next nextTwin : ScriptValue → Procedure}
      (targets : target.Resembles swap targetTwin) (keys : key.Resembles swap keyTwin)
      (rest : ∀ value twin, value.Resembles swap twin → Resembles swap (next value) (nextTwin twin)) :
      Resembles swap (.index target key next) (.index targetTwin keyTwin nextTwin)
  | assign {target targetTwin key keyTwin value twin : ScriptValue} {next nextTwin : Procedure}
      (targets : target.Resembles swap targetTwin) (keys : key.Resembles swap keyTwin)
      (values : value.Resembles swap twin) (rest : Resembles swap next nextTwin) :
      Resembles swap (.assign target key value next) (.assign targetTwin keyTwin twin nextTwin)
  | call {function functionTwin : ScriptValue} {arguments twins : List ScriptValue}
      {next nextTwin : List ScriptValue → Procedure} (functions : function.Resembles swap functionTwin)
      (passed : ResembleAll swap arguments twins)
      (rest : ∀ results twins, ResembleAll swap results twins → Resembles swap (next results) (nextTwin twins)) :
      Resembles swap (.call function arguments next) (.call functionTwin twins nextTwin)
  | member {target targetTwin : ScriptValue} (name : String) {arguments twins : List ScriptValue}
      {next nextTwin : List ScriptValue → Procedure} (targets : target.Resembles swap targetTwin)
      (passed : ResembleAll swap arguments twins)
      (rest : ∀ results twins, ResembleAll swap results twins → Resembles swap (next results) (nextTwin twins)) :
      Resembles swap (.member target name arguments next) (.member targetTwin name twins nextTwin)
  | release {target targetTwin : ScriptValue} {next nextTwin : Bool → Procedure}
      (targets : target.Resembles swap targetTwin)
      (rest : ∀ released, Resembles swap (next released) (nextTwin released)) :
      Resembles swap (.release target next) (.release targetTwin nextTwin)

namespace Procedure.Resembles

theorem pushAll {values twins : List ScriptValue} (resemble : ResembleAll swap values twins) :
    (Procedure.pushAll values).Resembles swap (Procedure.pushAll twins) := by
  induction resemble with
  | nil => exact .finish
  | cons first _ ih => exact .push first ih

theorem pushHosts (values : List HostValue) :
    Resembles swap (values.foldr Procedure.pushHost .finish) (values.foldr Procedure.pushHost .finish) := by
  induction values with
  | nil => exact .finish
  | cons value _ ih => exact .pushHost value ih

end Procedure.Resembles

/-- The named actions do not look at keys. -/
theorem EmbedderAction.resembles_procedure (action : EmbedderAction) (name : String)
    {arguments twins : List ScriptValue} (resemble : ResembleAll swap arguments twins) :
    (action.procedure name arguments).Resembles swap (action.procedure name twins) := by
  refine .report name resemble ?_
  have passed (position : Nat) := resemble.getD position
  cases action with
  | nothing => exact .finish
  | echo => exact .pushAll resemble
  | give values => exact .pushHosts values
  | fail message => exact .fail message
  | readBack position type =>
      exact .read position type fun value => .describe value fun text => .push (.same _) (.pushHost value .finish)
  | index => exact .index (passed 0) (passed 1) fun _ _ values => .push values .finish
  | assign => exact .assign (passed 0) (passed 1) (passed 2) .finish
  | call => exact .call (passed 0) (List.forall₂_drop 1 resemble) fun _ _ => .pushAll
  | callMember =>
      simp only [requests, (passed 1).asString?_eq]
      exact .member _ (passed 0) (List.forall₂_drop 2 resemble) fun _ _ => .pushAll
  | release => exact .release (passed 0) fun _ => .push (.same _) .finish

namespace Context

/-- The functions of the embedder ask for the same if they are passed arguments that resemble each other. -/
def DiscreetEmbedders (swap : KeySwap) (context : Context) : Prop :=
  ∀ handle name body, context.callable? handle = some (.embedder name body) →
    ∀ arguments twins, ResembleAll swap arguments twins → (body arguments).Resembles swap (body twins)

/-- The functions of the embedder are made of the named actions. -/
def OnlyActions (context : Context) : Prop :=
  ∀ handle name body, context.callable? handle = some (.embedder name body) →
    ∃ action : EmbedderAction, body = action.procedure name

theorem OnlyActions.discreetEmbedders {context : Context} (actions : context.OnlyActions) :
    context.DiscreetEmbedders swap := by
  intro handle name body found arguments twins resemble
  rcases actions handle name body found with ⟨action, rfl⟩
  exact action.resembles_procedure name resemble

/-- A call of the handle runs no function of the embedder, or all of these are discreet. -/
def Discreet (swap : KeySwap) (context : Context) (handle : CallableHandle) : Prop :=
  context.Generated handle ∨ context.DiscreetEmbedders swap

/-- The target of a delegate is not a function, or one that is discreet. -/
def DiscreetTarget (swap : KeySwap) (context : Context) (target : UInt64) : Prop :=
  ∀ handle, CallableHandle.ofTarget? target = some handle → context.Discreet swap handle

/-- Calls of the value are discreet: of a function, or of each target of a delegate. -/
def Harmless (swap : KeySwap) (context : Context) : ScriptValue → Prop
  | .function handle => context.Discreet swap handle
  | .proxy proxy =>
      ∀ delegate, context.cache.resolve? proxy = some (.delegate delegate) →
        ∀ target ∈ delegate.targets, context.DiscreetTarget swap target
  | _ => True

variable {before after : Context}

theorem AddsNoEmbedder.discreetEmbedders (adds : before.AddsNoEmbedder after)
    (discreet : before.DiscreetEmbedders swap) : after.DiscreetEmbedders swap :=
  fun handle name body found => discreet handle name body (adds handle name body found)

theorem AddsNoEmbedder.discreetTarget (adds : before.AddsNoEmbedder after) {target : UInt64}
    (discreet : before.DiscreetTarget swap target) : after.DiscreetTarget swap target := by
  intro handle known
  rcases discreet handle known with generated | embedders
  · exact .inl fun name body found => generated name body (adds handle name body found)
  · exact .inr (adds.discreetEmbedders embedders)

theorem harmless_of_discreetEmbedders (discreet : before.DiscreetEmbedders swap) (value : ScriptValue) :
    before.Harmless swap value := by
  cases value with
  | function handle => exact .inr discreet
  | proxy proxy => exact fun _ _ _ _ _ _ => .inr discreet
  | _ => trivial

end Context

/-- Calls do the same for arguments that resemble each other, and they keep contexts wired. -/
structure Invoker.Discreet (host : Host) (swap : KeySwap) (invoke : Invoker) : Prop where
  alike : ∀ {handle : CallableHandle} {arguments twins : List ScriptValue} {world twin : World},
    ResembleAll swap arguments twins → world.Resembles swap twin → world.context.Wired host.system →
    world.context.Discreet swap handle →
    EndsAlike swap (ResembleAll swap) world (exec (invoke handle arguments) world) (exec (invoke handle twins) twin)
  keeps : ∀ handle arguments, host.wiring.KeptBy (invoke handle arguments)

end ScriptBridge
