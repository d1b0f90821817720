import ScriptBridge.Host.Declaration
import ScriptBridge.Proofs.Modes.Operations
import ScriptBridge.Proofs.Steps.Operations

/-!
# Both modes in lockstep

Two new contexts over the same host state, one of each mode, are asked the same
things one after the other. They give the same answers and leave the same host
state, for as long as the context that makes members at their first use, and
registers more callables on the way, has room for callables.
-/

namespace ScriptBridge

open Bridge

namespace Host

variable {host : Host} {world after : World}

/-- No step takes a callable away. -/
theorem Step.size_callables_le (step : host.Step world after) :
    world.context.callables.size ≤ after.context.callables.size := by
  cases step with
  | bind step =>
      cases step with
      | register callable room => simp
      | rebind type change =>
          have kept := Context.callables_modifyBinding world.context type change
          exact Nat.le_of_eq (congrArg Array.size kept.symm)
      | _ => exact Nat.le_refl _
  | outside step => cases step <;> exact Nat.le_refl _
  | unbind => exact Nat.le_refl _

theorem size_callables_le_of_steps (steps : Relation.ReflTransGen host.Step world after) :
    world.context.callables.size ≤ after.context.callables.size := by
  induction steps with
  | refl => exact Nat.le_refl _
  | tail _ step ih => exact Nat.le_trans ih step.size_callables_le

end Host

namespace Comparison

variable {c : Comparison} {before : World × World} {left right : World}

/--
The same question to both contexts: what it names is the same up to the mark of proxies. Nothing in it
is a function but what is called, for which the two functions stand for the same member.
-/
inductive AskedAlike (c : Comparison) (left right : World) : Operation → Operation → Prop
  | bind (type : TypeRef) : AskedAlike c left right (.bind type) (.bind type)
  | ensureBound (type : TypeRef) : AskedAlike c left right (.ensureBound type) (.ensureBound type)
  | global (path : String) : AskedAlike c left right (.global path) (.global path)
  | index {target key : ScriptValue} (noFunctions : NoFunctions [target, key]) :
      AskedAlike c left right (.index target key) (.index (target.retag c.rename) (key.retag c.rename))
  | assign {target key item : ScriptValue} (noFunctions : NoFunctions [target, key, item]) :
      AskedAlike c left right (.assign target key item)
        (.assign (target.retag c.rename) (key.retag c.rename) (item.retag c.rename))
  | call {function other : ScriptValue} {arguments : List ScriptValue}
      (handed : c.Handed left right function other)
      (noFunctions : NoFunctions arguments) :
      AskedAlike c left right (.call function arguments) (.call other (retagAll c.rename arguments))
  | construct {function other : ScriptValue} {arguments : List ScriptValue}
      (handed : c.Handed left right function other) (noFunctions : NoFunctions arguments) :
      AskedAlike c left right (.construct function arguments) (.construct other (retagAll c.rename arguments))
  | invokeMember {target : ScriptValue} (name : String) {arguments : List ScriptValue}
      (noFunctions : NoFunctions (target :: arguments)) :
      AskedAlike c left right (.invokeMember target name arguments)
        (.invokeMember (target.retag c.rename) name (retagAll c.rename arguments))
  | operate (operator : Operator) {first second : ScriptValue} (noFunctions : NoFunctions [first, second]) :
      AskedAlike c left right (.operate operator first second)
        (.operate operator (first.retag c.rename) (second.retag c.rename))
  | text {value : ScriptValue} (noFunctions : NoFunctions [value]) :
      AskedAlike c left right (.text value) (.text (value.retag c.rename))
  | release {value : ScriptValue} (noFunctions : NoFunctions [value]) :
      AskedAlike c left right (.release value) (.release (value.retag c.rename))

/-- The same answer from both contexts, where two functions stand for the same member. -/
inductive AnsweredAlike (c : Comparison) (left right : World) : Answer → Answer → Prop
  | done : AnsweredAlike c left right .done .done
  | truth (value : Bool) : AnsweredAlike c left right (.truth value) (.truth value)
  | text (value : String) : AnsweredAlike c left right (.text value) (.text value)
  | value {value other : ScriptValue} (handed : c.Handed left right value other) :
      AnsweredAlike c left right (.value value) (.value other)
  | values {values others : List ScriptValue} (same : c.SameDataAll left right values others) :
      AnsweredAlike c left right (.values values) (.values others)

/-- Operations that are asked alike simulate each other. -/
theorem simulates_perform (agree : c.Agree before.1 before.2) {operation other : Operation}
    (asked : c.AskedAlike before.1 before.2 operation other) :
    c.Simulates none before (c.host.perform operation) (c.host.perform other) c.AnsweredAlike := by
  cases asked with
  | bind type => exact ((simulates_loadClass type agree).adapt _).map fun _ _ _ _ same => .value same.handed
  | ensureBound type => exact ((simulates_ensureBound type agree).adapt _).map fun _ _ _ _ _ => .done
  | global path => exact ((simulates_global agree path).adapt _).map fun _ _ _ _ handed => .value handed
  | @index target key noFunctions =>
      rcases List.forall_mem_cons.mp noFunctions with ⟨noTarget, noFunctions⟩
      have noKey := List.forall_mem_singleton.mp noFunctions
      exact ((simulates_index agree (.data target noTarget) noKey).adapt _).map
        fun _ _ _ _ handed => .value handed
  | @assign target key item noFunctions =>
      rcases List.forall_mem_cons.mp noFunctions with ⟨-, noFunctions⟩
      rcases List.forall_mem_cons.mp noFunctions with ⟨noKey, noFunctions⟩
      have noItem := List.forall_mem_singleton.mp noFunctions
      exact ((simulates_assign agree target noKey noItem).adapt _).map fun _ _ _ _ _ => .done
  | call handed noFunctions =>
      exact ((simulates_call agree handed noFunctions).adapt _).map fun _ _ _ _ same => .values same
  | construct handed noFunctions =>
      exact ((simulates_construct agree handed noFunctions).adapt _).map fun _ _ _ _ same => .values same
  | invokeMember name noFunctions =>
      rcases List.forall_mem_cons.mp noFunctions with ⟨noTarget, noArguments⟩
      exact ((simulates_invokeMember agree noTarget name noArguments).adapt _).map
        fun _ _ _ _ same => .values same
  | operate operator noFunctions =>
      rcases List.forall_mem_cons.mp noFunctions with ⟨noFirst, noFunctions⟩
      have noSecond := List.forall_mem_singleton.mp noFunctions
      exact ((simulates_operate agree operator noFirst noSecond).adapt _).map
        fun _ _ _ _ same => .value same.handed
  | text noFunctions =>
      have noFunction := List.forall_mem_singleton.mp noFunctions
      apply ((simulates_text agree noFunction).adapt _).map
      intro _ _ _ other same
      exact same ▸ .text other
  | @release value noFunctions =>
      apply ((simulates_release agree value).adapt _).map
      intro _ _ _ other same
      exact same ▸ .truth other

/-- Two new contexts over the same host state: of the given configuration, and with members made at first use. -/
def start (c : Comparison) (store : HostStore) (tag : CacheTag) : World × World :=
  (⟨store, .fresh c.config tag, []⟩, ⟨store, .fresh c.config.onDemand (c.rename tag), []⟩)

/-- New contexts agree. -/
theorem agree_start (c : Comparison) {store : HostStore} (plain : store.Plain) (tag : CacheTag) :
    c.Agree (c.start store tag).1 (c.start store tag).2 where
  store := rfl
  plainStore := plain
  cache := rfl
  consistent := IdentityCache.consistent_empty tag
  plainCache := IdentityCache.allLive_empty tag _
  config := rfl
  otherConfig := rfl
  namespaces := rfl
  heap := (TableHeap.related_empty.create _).2
  bindings := FinMap.related_empty
  extensions := nofun
  otherExtensions := nofun
  fewer := Nat.le_refl _

/--
No native body leaves a delegate in the course of the operation: it does what it does with the bodies
that leave none.
-/
def LeavesNoDelegates (c : Comparison) (operation : Operation) (world : World) : Prop :=
  exec (c.host.perform operation) world = exec (c.given.perform operation) world

/-- The pairs of worlds to which questions asked alike lead, while no native body leaves a delegate. -/
inductive Lockstep (c : Comparison) (start : World × World) : World × World → Prop
  | start : Lockstep c start start
  | ask {worlds : World × World} {operation other : Operation} (reached : Lockstep c start worlds)
      (asked : c.AskedAlike worlds.1 worlds.2 operation other)
      (plain : c.LeavesNoDelegates operation worlds.1)
      (otherPlain : c.LeavesNoDelegates other worlds.2) :
      Lockstep c start
        ((exec (c.given.perform operation) worlds.1).2, (exec (c.given.perform other) worlds.2).2)

/--
What the two contexts do with a question: the answers are the same, the host state and the proxies are
the same afterwards, and functions that stood for the same member go on doing so.
-/
structure Matches (c : Comparison) (worlds : World × World) (run otherRun : Except Failure Answer × World) :
    Prop where
  answers : Except.Related (c.AnsweredAlike run.2 otherRun.2) run.1 otherRun.1
  store : otherRun.2.store = run.2.store
  proxies : otherRun.2.context.cache = run.2.context.cache.retag c.rename
  handles : ∀ handle other, c.StandsFor worlds.1.context worlds.2.context handle other →
    c.StandsFor run.2.context otherRun.2.context handle other

variable {worlds start : World × World} {operation other : Operation}

/-- Agreeing worlds answer a question alike and agree again, if the second context has room for callables. -/
theorem Agree.ask (agree : c.Agree worlds.1 worlds.2) (asked : c.AskedAlike worlds.1 worlds.2 operation other)
    (plain : c.LeavesNoDelegates operation worlds.1)
    (otherPlain : c.LeavesNoDelegates other worlds.2)
    (room : (exec (c.given.perform other) worlds.2).2.context.callables.size < UInt32.size) :
    c.Agree (exec (c.given.perform operation) worlds.1).2 (exec (c.given.perform other) worlds.2).2 ∧
      c.Matches worlds (exec (c.given.perform operation) worlds.1)
        (exec (c.given.perform other) worlds.2) := by
  have simulates := simulates_perform agree asked
  rw [Simulates, plain, otherPlain] at simulates
  rcases simulates with ⟨-, full⟩ | ⟨agree, advances, results⟩
  · exact absurd full (Nat.not_le_of_lt room)
  · exact ⟨agree, results, agree.store, agree.cache, fun _ _ => advances.standsFor⟩

theorem size_callables_le_perform (host : Host) (operation : Operation) (world : World) :
    world.context.callables.size ≤ (exec (host.perform operation) world).2.context.callables.size :=
  Host.size_callables_le_of_steps (Host.steps_perform operation world)

/-- In lockstep the worlds agree for as long as the second context has room for callables. -/
theorem Lockstep.agree (agree : c.Agree start.1 start.2) (reached : c.Lockstep start worlds)
    (room : worlds.2.context.callables.size < UInt32.size) : c.Agree worlds.1 worlds.2 := by
  induction reached with
  | start => exact agree
  | @ask worlds operation other reached asked plain otherPlain ih =>
      have earlier := ih (Nat.lt_of_le_of_lt (size_callables_le_perform c.given other worlds.2) room)
      exact (earlier.ask asked plain otherPlain room).1

/--
Whatever is asked of two new contexts of both modes in lockstep, they match at every question, unless
the context that makes members at their first use is full of callables.
-/
theorem onDemand_matches_eager (c : Comparison) {store : HostStore} (plainStore : store.Plain)
    (tag : CacheTag)
    (reached : c.Lockstep (c.start store tag) worlds) (asked : c.AskedAlike worlds.1 worlds.2 operation other)
    (plain : c.LeavesNoDelegates operation worlds.1)
    (otherPlain : c.LeavesNoDelegates other worlds.2) :
    c.Matches worlds (exec (c.given.perform operation) worlds.1) (exec (c.given.perform other) worlds.2) ∨
      UInt32.size ≤ (exec (c.given.perform other) worlds.2).2.context.callables.size := by
  rcases Nat.lt_or_ge (exec (c.given.perform other) worlds.2).2.context.callables.size UInt32.size with room | full
  · have earlier := Nat.lt_of_le_of_lt (size_callables_le_perform c.given other worlds.2) room
    have agree := reached.agree (agree_start c plainStore tag) earlier
    exact Or.inl (agree.ask asked plain otherPlain room).2
  · exact Or.inr full

/-- A type beside the core types, with a static property and a static method. -/
def gauge : TypeDef :=
  ((TypeDef.ofClass "Demo" "Gauge").addAutoProperty "Level" .int32 true (.int32 7)).addMethods
    [{ MethodDef.named "Reset" (.native 0) with isStatic := true }]

/-- The host of the core types and the type of gauges. -/
def gaugeHost : Host where
  system :=
    { types := coreTypes ++ [gauge]
      starts_with_core := by decide
      founded := by decide }
  registry := .core
  natives := [fun _ invocation => pure (invocation.complete .null)]
  callDepth := 1

/-- The configuration of contexts without extension methods. -/
def gaugeConfig : Config :=
  { Config.standard with mergesExtensions := false }

theorem gaugeHost_unambiguous (type : TypeRef) : (gaugeHost.catalog gaugeConfig type).Unambiguous := by
  cases type with
  | array element => exact Catalog.unambiguous_of_bare _ rfl rfl rfl
  | declared index =>
      have core : ∀ index < 15, (gaugeHost.catalog gaugeConfig (.declared index)).Unambiguous := by
        decide +kernel
      rcases Nat.lt_or_ge index 15 with declared | undeclared
      · exact core index declared
      · have bare : gaugeHost.system.definition (.declared index) = default := by
          rw [TypeSystem.definition, List.getElem?_eq_none undeclared, Option.getD_none]
        apply Catalog.unambiguous_of_bare <;> rw [bare] <;> rfl

theorem gaugeHost_plainTypes : gaugeHost.system.Plain := by
  apply TypeSystem.plain_of_types
  intro definition declared field present
  have initials : ∀ definition ∈ coreTypes ++ [gauge], ∀ field ∈ definition.fields,
      field.initial.asDelegate?.isNone ∧ field.initial.isCopied = false := by
    decide +kernel
  rcases initials definition declared field present with ⟨noDelegate, noCopy⟩
  exact .simple _ (Option.isNone_iff_eq_none.mp noDelegate) noCopy

theorem gaugeHost_plainBodies : ∀ code ∈ gaugeHost.natives, code.KeepsPlain gaugeHost.system := by
  intro code present
  rcases List.mem_singleton.mp present with rfl
  intro invocation plain
  exact NativeRun.keepsPlain_pure (plain.complete HostValue.plain_null)

/-- Contexts without extension methods on the host of gauges, whose own native body leaves no delegates. -/
def gauges : Comparison where
  given := gaugeHost
  bodies := gaugeHost.natives
  config := gaugeConfig
  rename := Equiv.refl CacheTag
  isEager := rfl
  unambiguous := gaugeHost_unambiguous
  plainTypes := gaugeHost_plainTypes
  plainBodies := gaugeHost_plainBodies

/-- The host state with the level of gauges. -/
def gaugeStore : HostStore := HostStore.empty.writeStatic (.declared 14) (backingName "Level") (.int32 7)

/-- The worlds in which both contexts have bound the type of gauges. -/
def gaugesBound : World × World :=
  ((exec (gauges.given.perform (.bind (.declared 14))) (gauges.start gaugeStore ⟨1⟩).1).2,
    (exec (gauges.given.perform (.bind (.declared 14))) (gauges.start gaugeStore ⟨1⟩).2).2)

/-- A method is called that one context made with its type and that the other makes now. -/
theorem onDemand_matches_eager_reset :
    gauges.Matches gaugesBound
      (exec (gauges.given.perform (.invokeMember (.table ⟨5⟩) "Reset" [])) gaugesBound.1)
      (exec (gauges.given.perform (.invokeMember (.table ⟨5⟩) "Reset" [])) gaugesBound.2) := by
  have bound : gauges.Lockstep (gauges.start gaugeStore ⟨1⟩) gaugesBound :=
    .ask .start (.bind _) rfl rfl
  have asked : gauges.AskedAlike gaugesBound.1 gaugesBound.2 (.invokeMember (.table ⟨5⟩) "Reset" [])
      (.invokeMember (.table ⟨5⟩) "Reset" []) :=
    .invokeMember "Reset" (List.forall_mem_singleton.mpr rfl)
  have room : ¬UInt32.size ≤
      (exec (gauges.given.perform (.invokeMember (.table ⟨5⟩) "Reset" []))
        gaugesBound.2).2.context.callables.size := by
    decide +kernel
  have plain := HostStore.plain_empty.writeStatic (.declared 14) (backingName "Level")
    (.simple (.int32 7) rfl rfl)
  exact (onDemand_matches_eager gauges plain ⟨1⟩ bound asked rfl rfl).resolve_right room

end Comparison

end ScriptBridge
