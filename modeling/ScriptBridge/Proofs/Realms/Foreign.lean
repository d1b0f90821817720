import ScriptBridge.Proofs.Foreign.Operations
import ScriptBridge.Proofs.Realms.Receivers
import ScriptBridge.Proofs.Realms.Refusals

/-!
# Proxies of other contexts in every run

The keys of two contexts overlap all the time, and so it matters that a context looks at
the mark of a proxy before it looks at its key: whatever scripts do with proxies of other
contexts, they find out nothing and change nothing.
-/

namespace ScriptBridge

open Bridge

/-- One proxy has another key, wherever it stands. -/
def KeySwap.single (own : CacheTag) (proxy : Proxy) (key : ProxyKey) (elsewhere : proxy.tag ≠ own) : KeySwap where
  own := own
  gives other given := other = proxy ∧ given = key
  elsewhere same := by
    rcases same with ⟨rfl, -⟩
    exact elsewhere

namespace Realm

/--
Proxies of other contexts reveal and touch nothing: in every run, also while functions of the embedder are running,
proxies that other contexts made can be given other keys in what a script asks for. It is answered alike, or fails in
the same way, and the world that it leaves is the same but for such keys in values that were stored or handed on. In
particular no instance of the context is read, changed or let go through them. Comparing for equality is left out, and
so are calls of functions of the embedder that look at keys themselves; the named actions do not.
-/
theorem foreignKeys_unseen (actions : List Action) (place : Nat) (context : Context)
    (present : (core.actAll actions).contexts[place]? = some context) (world : World)
    (follows : (core.actAll actions).host.Follows ⟨(core.actAll actions).store, context, []⟩ world) :
    let realm := core.actAll actions
    (∀ (other : Nat) (maker : Context) (proxy : Proxy), realm.contexts[other]? = some maker → other ≠ place →
      maker.cache.Minted proxy → proxy.tag ≠ world.context.cache.tag) ∧
    ∀ swap : KeySwap, world.context.cache.tag = swap.own →
      (∀ operation other : Operation, operation.Resembles swap other → operation.Contained realm.host swap world →
        Answer.Alike swap (exec (realm.host.perform operation) world) (exec (realm.host.perform other) world)) ∧
      (world.context.OnlyActions → ∀ operation : Operation, operation.Contained realm.host swap world) := by
  intro realm
  rcases sound_follows actions present follows with ⟨wired, consistent⟩
  have sameTag := @Host.tag_follows realm.host world ⟨_, context, []⟩ (consistent_cache actions present) follows
  refine ⟨fun other maker proxy made different minted same => ?_, fun swap own => ⟨?_, fun actions => ?_⟩⟩
  · exact different ((tagsApart actions).injective other place maker context made present
      (minted.tag_eq.symm.trans (same.trans sameTag)))
  · exact fun operation other => Host.alike_perform wired consistent own
  · exact Host.contained_of_discreetEmbedders wired own actions.discreetEmbedders

/-- A lamp is handed to the scripts of two contexts, and the first one has a table. -/
def lampShared : List Action :=
  [.declare lamp, .addNative fun _ invocation => pure (invocation.complete (.boolean true)),
    .openContext .standard, .openContext .standard, .make (.newObject (.declared 14)),
    .perform 0 (.push (.object ⟨0⟩)), .perform 1 (.push (.object ⟨0⟩)), .perform 0 .createTable]

/-- The proxy of the second context for the lamp. -/
def otherLamp : Proxy := ⟨⟨3, 0⟩, .declared 14, ⟨2⟩⟩

/--
The proxy of the second context has the key of the live proxy of the first one, which could have any other key: its
script stores it, with its key, and cannot let go of it.
-/
theorem foreignKeys_unseen_lampShared :
    ∃ context,
      (core.actAll lampShared).contexts[0]? = some context ∧
      let host := (core.actAll lampShared).host
      let world : World := ⟨(core.actAll lampShared).store, context, []⟩
      let swap : KeySwap := .single ⟨1⟩ otherLamp ⟨9, 4⟩ (by decide)
      let keep (proxy : Proxy) := exec (host.perform (.assign (.table ⟨6⟩) (.string "kept") (.proxy proxy))) world
      let drop (proxy : Proxy) := exec (host.perform (.release (.proxy proxy))) world
      (world.context.cache.resolve? { otherLamp with tag := ⟨1⟩ }).bind (·.asObject?) = some ⟨0⟩ ∧
        Answer.Alike swap (keep otherLamp) (keep { otherLamp with key := ⟨9, 4⟩ }) ∧
        (keep otherLamp).2.context.heap.get ⟨6⟩ (.string "kept") = .proxy otherLamp ∧
        Answer.Alike swap (drop otherLamp) (drop { otherLamp with key := ⟨9, 4⟩ }) := by
  have checked : ((core.actAll lampShared).contexts[0]?.map fun context =>
      let world : World := ⟨(core.actAll lampShared).store, context, []⟩
      let kept := (exec ((core.actAll lampShared).host.perform
        (.assign (.table ⟨6⟩) (.string "kept") (.proxy otherLamp))) world).2
      (context.cache.tag, (context.cache.resolve? { otherLamp with tag := ⟨1⟩ }).bind (·.asObject?),
        kept.context.heap.get ⟨6⟩ (.string "kept"))) = some (⟨1⟩, some ⟨0⟩, .proxy otherLamp) := by
    decide +kernel
  rcases Option.map_eq_some_iff.mp checked with ⟨context, present, results⟩
  rcases Prod.mk.inj results with ⟨tag, results⟩
  rcases Prod.mk.inj results with ⟨live, stored⟩
  let swap : KeySwap := .single ⟨1⟩ otherLamp ⟨9, 4⟩ (by decide)
  have values : (ScriptValue.proxy otherLamp).Resembles swap (.proxy { otherLamp with key := ⟨9, 4⟩ }) :=
    .foreign ⟨rfl, rfl⟩
  have both := foreignKeys_unseen lampShared 0 context present ⟨(core.actAll lampShared).store, context, []⟩ .refl
  have unseen := (both.2 swap tag).1
  exact ⟨context, present, live, unseen _ _ (.assign (.same _) (.same _) values) trivial, stored,
    unseen _ _ (.release values) trivial⟩

end Realm

end ScriptBridge
