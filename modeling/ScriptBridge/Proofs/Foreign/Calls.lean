import ScriptBridge.Context.Calls
import ScriptBridge.Proofs.Foreign.Dispatch

/-!
# Calls see no proxies of other contexts

A function of the embedder that is discreet asks for the same as often as it is called with
the same, and each of its requests is answered alike. By induction on how deep such
functions may nest, all calls of discreet functions are alike.
-/

namespace ScriptBridge

open Bridge

variable {swap : KeySwap}

/-- The frames have arguments and results that resemble each other. -/
structure Frame.Resembles (swap : KeySwap) (frame other : Frame) : Prop where
  arguments : ResembleAll swap frame.arguments other.arguments
  results : ResembleAll swap frame.results other.results

namespace Frame.Resembles

variable {frame other : Frame}

theorem ofArguments {arguments twins : List ScriptValue} (resemble : ResembleAll swap arguments twins) :
    (Frame.ofArguments arguments).Resembles swap (Frame.ofArguments twins) :=
  ⟨resemble, .nil⟩

theorem push (frames : frame.Resembles swap other) {value twin : ScriptValue} (values : value.Resembles swap twin) :
    (frame.push value).Resembles swap (other.push twin) :=
  ⟨frames.arguments, List.rel_append frames.results (.cons values .nil)⟩

end Frame.Resembles

namespace Host

variable {host : Host} {invoke : Invoker} {frame otherFrame : Frame}

theorem mirrors_readArgument (frames : frame.Resembles swap otherFrame) (position : Nat) (type : TypeRef) :
    Mirrors swap Eq (host.readArgument frame position type) (host.readArgument otherFrame position type) := by
  have values : (frame.argument position).Resembles swap (otherFrame.argument position) :=
    frames.arguments.getD position
  refine (mirrors_fits values type).after fun fits => ?_
  rw [values.kindName_eq]
  split
  · exact mirrors_toHost values type
  · exact .throw _

theorem mirrors_pushResult (frames : frame.Resembles swap otherFrame) (value : HostValue) :
    Mirrors swap (Frame.Resembles swap) (host.pushResult frame value) (host.pushResult otherFrame value) :=
  Mirrors.after (blind_push value) fun _ => .pure (frames.push (.same _))

/-- What two procedures that resemble each other are told resembles each other, request by request. -/
theorem endsAlike_runProcedure (invokes : Invoker.Discreet host swap invoke) {procedure other : Procedure}
    (procedures : procedure.Resembles swap other) (frames : frame.Resembles swap otherFrame) {world twin : World}
    (worlds : world.Resembles swap twin) (wired : world.context.Wired host.system)
    (discreet : world.context.DiscreetEmbedders swap) :
    EndsAlike swap (Frame.Resembles swap) world (exec (host.runProcedure invoke procedure frame) world)
      (exec (host.runProcedure invoke other otherFrame) twin) := by
  have respects := respects_wiring host
  -- on what both ask for; that the embedder's functions are discreet is carried along, as no request registers one
  induction procedures generalizing frame otherFrame world twin with
  | finish => exact .pure worlds frames
  | fail message => exact .throw worlds _
  | report name passed _ ih =>
      exact (Mirrors.report name passed _ _ worlds).bindWired (respects.report _ _) wired
        fun _ _ _ _ worlds wired adds _ => ih frames worlds wired (adds.discreetEmbedders discreet)
  | push values _ ih => exact ih (frames.push values) worlds wired discreet
  | pushHost value _ ih =>
      exact (mirrors_pushResult frames value _ _ worlds).bindWired (.bind (respects.push _) fun _ => .pure _) wired
        fun _ _ _ _ worlds wired adds pushed => ih pushed worlds wired (adds.discreetEmbedders discreet)
  | read position type _ ih =>
      refine (mirrors_readArgument frames position type _ _ worlds).bindWired (keptBy_readArgument _ _ _) wired
        fun value _ _ _ worlds wired adds same => ?_
      rcases same with rfl
      exact ih value frames worlds wired (adds.discreetEmbedders discreet)
  | describe value _ ih =>
      simp only [runProcedure, exec_bind_of_ok (exec_store _), worlds.store]
      exact ih _ frames worlds wired discreet
  | index targets keys _ ih =>
      exact (endsAlike_indexBy invokes worlds wired targets keys).bindWired (respects.indexBy invokes.keeps _ _) wired
        fun _ _ _ _ worlds wired adds values => ih _ _ values frames worlds wired (adds.discreetEmbedders discreet)
  | assign targets keys values _ ih =>
      exact (endsAlike_assignBy invokes worlds wired targets keys values).bindWired
        (respects.assignBy invokes.keeps _ _ _) wired
        fun _ _ _ _ worlds wired adds _ => ih frames worlds wired (adds.discreetEmbedders discreet)
  | call functions passed _ ih =>
      have harmless := Context.harmless_of_discreetEmbedders discreet
      exact (endsAlike_callBy invokes worlds wired passed functions (harmless _)).bindWired
        (keptBy_callBy invokes.keeps _ _) wired
        fun _ _ _ _ worlds wired adds results => ih _ _ results frames worlds wired (adds.discreetEmbedders discreet)
  | @member target targetTwin name _ _ _ _ targets passed _ ih =>
      refine (endsAlike_invokeMemberBy invokes worlds wired passed targets name fun function middle run => ?_).bindWired
        (respects.invokeMemberBy invokes.keeps _ _ _) wired
        fun _ _ _ _ worlds wired adds results => ih _ _ results frames worlds wired (adds.discreetEmbedders discreet)
      have looked := (endsAlike_indexBy invokes worlds wired targets (.same (.string name))).embedders
      rw [run] at looked
      exact Context.harmless_of_discreetEmbedders (looked.discreetEmbedders discreet) function
  | release targets _ ih =>
      refine (mirrors_release targets _ _ worlds).bindWired (respects.release _) wired
        fun released _ _ _ worlds wired adds same => ?_
      rcases same with rfl
      exact ih released frames worlds wired (adds.discreetEmbedders discreet)

section Invoke

variable {handle : CallableHandle} {arguments twins : List ScriptValue} {world twin : World}
  (resemble : ResembleAll swap arguments twins) (worlds : world.Resembles swap twin)

include resemble worlds

/-- Members give the same results, whatever the depth. -/
theorem endsAlike_invokeWithin_of_generated (depth : Nat) (generated : world.context.Generated handle) :
    EndsAlike swap (ResembleAll swap) world (exec (host.invokeWithin depth handle arguments) world)
      (exec (host.invokeWithin depth handle twins) twin) := by
  have same {action other : Bridge ScriptError (List ScriptValue)} (mirrors : Mirrors swap Eq action other) :
      EndsAlike swap (ResembleAll swap) world (exec action world) (exec other twin) :=
    (mirrors world twin worlds).mono fun results _ same => same ▸ .refl results
  unfold invokeWithin
  simp only [exec_bind_of_ok (exec_context _), worlds.context.callable?_eq]
  cases found : world.context.callable? handle with
  | none => exact .throw worlds _
  | some callable =>
      cases callable with
      | placeholder member => exact same (mirrors_runPlaceholder resemble member)
      | embedder name body => exact absurd found (generated name body)
      | _ => exact same (mirrors_runMember resemble _)

end Invoke

/-- However deep functions of the embedder nest, discreet calls are alike. -/
theorem discreet_invokeWithin (depth : Nat) : Invoker.Discreet host swap (host.invokeWithin depth) := by
  induction depth with
  | zero =>
      refine ⟨fun {handle arguments twins world twin} resemble worlds wired _ => ?_,
        (respects_wiring host).invokeWithin 0⟩
      by_cases generated : world.context.Generated handle
      · exact endsAlike_invokeWithin_of_generated resemble worlds 0 generated
      · simp only [Context.Generated, not_forall, not_not] at generated
        rcases generated with ⟨name, body, found⟩
        simp only [invokeWithin, exec_bind_of_ok (exec_context _), worlds.context.callable?_eq, found]
        exact .throw worlds _
  | succ depth ih =>
      refine ⟨fun {handle arguments twins world twin} resemble worlds wired discreet => ?_,
        (respects_wiring host).invokeWithin (depth + 1)⟩
      by_cases generated : world.context.Generated handle
      · exact endsAlike_invokeWithin_of_generated resemble worlds (depth + 1) generated
      · -- only a function of the embedder asks back, and its calls nest less deep
        have embedders := discreet.resolve_left generated
        simp only [Context.Generated, not_forall, not_not] at generated
        rcases generated with ⟨name, body, found⟩
        simp only [invokeWithin, exec_bind_of_ok (exec_context _), worlds.context.callable?_eq, found, bind_pure_comp]
        have procedures := embedders handle name body found arguments twins resemble
        exact (endsAlike_runProcedure ih procedures (.ofArguments resemble) worlds wired embedders).map
          fun _ _ frames => frames.results

end Host

end ScriptBridge
