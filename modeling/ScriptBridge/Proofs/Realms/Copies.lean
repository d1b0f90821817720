import ScriptBridge.Proofs.Natives.Passed
import ScriptBridge.Proofs.Realms.Refusals

/-!
# Copies in every run

A script that holds a copy of an instance works on its own copy: what a member leaves is
what the proxy stands for from then on, and all other proxies are left alone.
-/

namespace ScriptBridge.Realm

open Bridge

/--
Copies are written back exactly: in every run, also while functions of the embedder are running, an operation that
works on an instance changes it in one write of a field or one call of native code. What that leaves of a copy is
what the proxy stands for afterwards; where native code throws, or is not reached, the proxy stands for what it stood
for. All other live proxies stand for what they stood for in any case, and so do all proxies where the operation only
passes them.
-/
theorem copies_writtenBack (actions : List Action) (place : Nat) (context : Context)
    (present : (core.actAll actions).contexts[place]? = some context) (world : World)
    (follows : (core.actAll actions).host.Follows ⟨(core.actAll actions).store, context, []⟩ world) :
    let host := (core.actAll actions).host
    (∀ (operation : Operation) target through rests, operation.WorksOn host world target through rests →
      (world.WorksThrough through target rests (fun _ => True) fun runner =>
        exec (host.performBy runner operation) world) ∧
      ∀ key entry, world.context.cache.lookup? key = some entry →
        (∀ proxy, target = some (.proxy proxy) → key ≠ proxy.key) →
        (exec (host.perform operation) world).2.context.cache.lookup? key = some entry) ∧
    ∀ operation : Operation, operation.OnlyPasses → world.KeepsProxies (exec (host.perform operation) world).2 := by
  intro host
  rcases sound_follows actions present follows with ⟨wired, consistent⟩
  refine ⟨fun operation target through rests worksOn => ?_, fun operation =>
    Host.keepsProxies_of_onlyPasses wired consistent⟩
  have works := Host.worksThrough_performBy wired consistent worksOn
  refine ⟨works, fun key entry live others => ?_⟩
  rw [← Host.performBy_runner]
  exact works.keeps (.inl others) live

/-- A type of copies with a field. -/
def purse : TypeDef := (TypeDef.ofStruct "Game" "Purse").addField (.named "coins" .int32 (.int32 0))

def emptyPurse : HostValue := .copied ⟨.declared 14, .ofList [("coins", .int32 0)], []⟩

/-- The same purse is handed to a script twice. -/
def pursesHanded : List Action :=
  [.declare purse, .openContext .standard, .perform 0 (.push emptyPurse), .perform 0 (.push emptyPurse)]

/-- The script puts coins into the first copy: they are there, and the second copy is as it was. -/
theorem copies_writtenBack_pursesHanded :
    ∃ context,
      (core.actAll pursesHanded).contexts[0]? = some context ∧
      let host := (core.actAll pursesHanded).host
      let world : World := ⟨(core.actAll pursesHanded).store, context, []⟩
      let first : Proxy := ⟨⟨4, 0⟩, .declared 14, ⟨1⟩⟩
      let after := (exec (host.perform (.assign (.proxy first) (.string "coins") (.integer 3))) world).2
      (exec (host.index (.proxy first) (.string "coins")) after).1.toOption = some (.integer 3) ∧
        ∃ entry, world.context.cache.lookup? ⟨5, 0⟩ = some entry ∧ after.context.cache.lookup? ⟨5, 0⟩ = some entry := by
  let host := (core.actAll pursesHanded).host
  let first : Proxy := ⟨⟨4, 0⟩, .declared 14, ⟨1⟩⟩
  have checked : ((core.actAll pursesHanded).contexts[0]?.map fun context =>
      let world : World := ⟨(core.actAll pursesHanded).store, context, []⟩
      let after := (exec (host.perform (.assign (.proxy first) (.string "coins") (.integer 3))) world).2
      (decide ((exec (host.index (.proxy first) (.string "coins")) after).1.toOption = some (.integer 3)),
        (context.cache.lookup? ⟨5, 0⟩).isSome)) = some (true, true) := by
    decide +kernel
  rcases Option.map_eq_some_iff.mp checked with ⟨context, present, results⟩
  rcases Prod.mk.inj results with ⟨written, handed⟩
  rcases Option.isSome_iff_exists.mp handed with ⟨entry, live⟩
  have outcome := copies_writtenBack pursesHanded 0 context present ⟨(core.actAll pursesHanded).store, context, []⟩ .refl
  have kept := (outcome.1 _ _ _ _ (.write first (.string "coins") (.integer 3))).2 ⟨5, 0⟩ entry live
  refine ⟨context, present, of_decide_eq_true written, entry, live, kept fun proxy same => ?_⟩
  rcases ScriptValue.proxy.inj (Option.some.inj same) with rfl
  decide

end ScriptBridge.Realm
