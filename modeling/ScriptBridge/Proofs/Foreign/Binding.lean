import ScriptBridge.Context.Members
import ScriptBridge.Proofs.Foreign.Mirroring
import ScriptBridge.Proofs.Identity.Requests
import ScriptBridge.Proofs.Steps.Registering

/-!
# Binding sees no proxies of other contexts

Binding a type reads of the tables only which tables they lead to. So it does the same
in worlds that differ in proxies of other contexts, and registers no functions of the
embedder. So do handing out values and resolving placeholders, which bind.
-/

namespace ScriptBridge

open Bridge

variable {swap : KeySwap} {ε : Type}

theorem IdentityCache.represent_tag (cache : IdentityCache) (value : HostValue) (type : TypeRef) :
    (cache.represent value type).2.tag = cache.tag := by
  rw [represent]
  split
  · rfl
  · exact fill_tag

theorem Callable.ofMember_ne_embedder (system : TypeSystem) (type : TypeRef) (member : CatalogMember) (name : String)
    (body : List ScriptValue → Procedure) : ofMember system type member ≠ .embedder name body := by
  intro same
  have generated := isGenerated_ofMember system type member
  rw [same] at generated
  cases generated

theorem Context.AddsNoEmbedder.push (context : Context) {callable : Callable}
    (noEmbedder : ∀ name body, callable ≠ .embedder name body) :
    context.AddsNoEmbedder { context with callables := context.callables.push callable } := by
  intro handle name body found
  rw [callable?, Array.getElem?_push] at found
  split at found
  · exact absurd (Option.some.inj found) (noEmbedder name body)
  · exact found

theorem Context.modifyBinding_setHeap (context : Context) (heap : TableHeap) (type : TypeRef)
    (change : TypeBinding → TypeBinding) :
    { context with heap := heap }.modifyBinding type change =
      { context.modifyBinding type change with heap := heap } := by
  simp only [modifyBinding, binding?]
  split <;> rfl

namespace Blind

theorem count (change : BindingCounters → BindingCounters) : Blind swap (Bridge.count change : Bridge ε Unit) :=
  modifyContext (fun _ _ => rfl) (fun _ => rfl) fun _ => .of_callables rfl

theorem rebind (type : TypeRef) (change : TypeBinding → TypeBinding) :
    Blind swap (Bridge.modifyContext fun context => context.modifyBinding type change : Bridge ε Unit) := by
  refine modifyContext (fun context heap => context.modifyBinding_setHeap heap type change) (fun context => ?_)
    fun context => ?_
  · rw [Context.modifyBinding_eq]
  · rw [Context.modifyBinding_eq]
    exact .of_callables rfl

theorem represent (value : HostValue) (type : TypeRef) : Blind swap (Bridge.represent value type : Bridge ε Proxy) := by
  intro world twin worlds
  rw [exec_represent, exec_represent, worlds.context.cache_eq]
  let change (context : Context) : Context := { context with cache := (world.context.cache.represent value type).2 }
  have changed : (change world.context).Resembles swap (change twin.context) :=
    worlds.context.change (fun _ => rfl) (IdentityCache.represent_tag _ _ _)
  exact ⟨⟨worlds.store, changed, worlds.reports⟩, .ok rfl, .of_callables rfl⟩

theorem register {callable : Callable} (noEmbedder : ∀ name body, callable ≠ .embedder name body) :
    Blind swap (Bridge.register callable) := by
  refine context (fun _ _ => rfl) fun context => ?_
  dsimp only
  split
  · exact .throw _
  · refine bind (modifyContext (fun _ _ => rfl) (fun _ => rfl) fun context => ?_) fun _ => .pure _
    exact .push context noEmbedder

/-- Entries that resemble each other are written. -/
theorem writeKey (id : TableId) (key : ScriptKey) {value twin : ScriptValue} (values : value.Resembles swap twin) :
    Mirrors swap Eq
      (Bridge.modifyContext fun context => { context with heap := context.heap.set id key value } : Bridge ε Unit)
      (Bridge.modifyContext fun context => { context with heap := context.heap.set id key twin }) :=
  Mirrors.modifyContext
    (fun _ _ resembles => resembles.setHeap (resembles.heap.set ScriptValue.Resembles.likeness id key values))
    fun _ => .of_callables rfl

theorem writeEntry (id : TableId) (name : String) (value : ScriptValue) :
    Blind swap (Bridge.writeEntry id name value : Bridge ε Unit) :=
  writeKey id (.string name) (.same value)

theorem createTable (kind : TableKind) : Blind swap (Bridge.createTable kind : Bridge ε TableId) := by
  intro world twin worlds
  rcases worlds.context.heap.create kind with ⟨sameId, created⟩
  exact ⟨⟨worlds.store, worlds.context.setHeap created, worlds.reports⟩, .ok sameId.symm, .of_callables rfl⟩

end Blind

namespace Host

variable {host : Host}

theorem blind_extensionMap : Blind swap (host.extensionMap : Bridge ε (Option ExtensionMap)) := by
  refine .context (fun _ _ => rfl) fun context => ?_
  split
  · exact .pure _
  · split
    · exact .pure _
    · exact .bind (.modifyContext (fun _ _ => rfl) (fun _ => rfl) fun _ => .of_callables rfl) fun _ => .pure _

theorem blind_installMember (type : TypeRef) (access : MemberAccess) (mode : BindingMode) (member : CatalogMember) :
    Blind swap (host.installMember type access mode member) := by
  cases mode with
  | eager =>
      exact .bind (.count _) fun _ => .bind (.register (Callable.ofMember_ne_embedder _ _ _)) fun _ => .pure _
  | «lazy» => exact .bind (.register fun _ _ => Callable.noConfusion) fun _ => .pure _

theorem blind_installItems (type : TypeRef) (indexers : List PropertyDef) :
    Blind swap (installItems type indexers) := by
  rw [installItems]
  split
  · exact .pure _
  · refine .bind (.register fun _ _ => Callable.noConfusion) fun _ => ?_
    exact .bind (.register fun _ _ => Callable.noConfusion) fun _ => .pure _

theorem blind_installConstructor (type : TypeRef) : Blind swap (host.installConstructor type) := by
  rw [installConstructor]
  split
  next => exact .pure _
  next callable given =>
    refine .bind (.register fun name body same => ?_) fun handle => .context (fun _ _ => rfl) fun context => ?_
    · simp only [same, constructorCallable?] at given
      split at given
      · cases given
      · split at given
        · cases given
        · split at given <;> cases given
    · split
      · exact .throw _
      · exact .rebind _ _

theorem blind_openBinding (type : TypeRef) (mode : BindingMode) : Blind swap (host.openBinding type mode) := by
  refine Mirrors.context fun context twin resembles => ?_
  have placed :=
    NamespaceTree.paired_place ScriptValue.Resembles.likeness host.system context.namespaces type resembles.heap
  have sameNamespaces : twin.namespaces = context.namespaces := by rw [resembles.rest]
  rw [sameNamespaces]
  refine (Mirrors.ofExcept placed).bind fun made other same => ?_
  rcases made with ⟨table, namespaces, heap⟩
  rcases other with ⟨otherTable, otherNamespaces, otherHeap⟩
  rcases same with ⟨rfl, rfl, heaps⟩
  let change (context : Context) : Context :=
    { context with
      namespaces := otherNamespaces
      bindings := context.bindings.insert type (.bare host.system type mode otherTable) }
  refine .after (Mirrors.modifyContext (fun context twin resembles => ?_) fun _ => .of_callables rfl) fun _ => .pure rfl
  have changed : (change context).Resembles swap (change twin) := resembles.change (fun _ => rfl) rfl
  exact changed.setHeap heaps

section Binders

variable {bind : Binder} (blind : ∀ type access mode, Blind swap (bind type access mode))

include blind

theorem blind_ensureBoundBy (type : TypeRef) : Blind swap (ensureBoundBy bind type) := by
  refine .context (fun _ _ => rfl) fun context => ?_
  split
  · exact (blind _ _ _).discard
  · exact .pure _

theorem blind_pushBy (value : HostValue) : Blind swap (pushBy bind value) := by
  rw [pushBy]
  split
  · exact .pure _
  · refine Blind.store fun store => ?_
    split
    · exact .throw _
    · exact .bind (blind_ensureBoundBy blind _) fun _ => .bind (.represent _ _) fun _ => .pure _

theorem blind_installConstants (table : TableId) (constants : List (String × HostValue)) :
    Blind swap (installConstants bind table constants) :=
  .forM constants fun _ => .bind (blind_pushBy blind _) fun _ => .writeEntry _ _ _

theorem blind_installMembers (type : TypeRef) (access : MemberAccess) (mode : BindingMode) :
    Blind swap (host.installMembers bind type access mode) := by
  refine .context (fun _ _ => rfl) fun context => ?_
  split
  · exact .throw _
  · refine .bind blind_extensionMap fun extensions => Blind.store fun store => ?_
    refine .bind (blind_installConstants blind _ _) fun _ => ?_
    refine .bind (.mapM _ fun member => blind_installMember type access mode member) fun slots => ?_
    refine .bind (.mapM _ fun entry => .bind (.register fun _ _ => Callable.noConfusion) fun _ => .pure _)
      fun operators => ?_
    refine .bind (blind_installItems type _) fun items => .context (fun _ _ => rfl) fun context => ?_
    split
    · exact .throw _
    · exact .rebind _ _

theorem blind_installEnumeration (type : TypeRef) (table : TableId) :
    Blind swap (host.installEnumeration bind type table) := by
  rw [installEnumeration]
  split
  · refine .bind (.forM _ fun member => .bind (blind_pushBy blind _) fun _ => .writeEntry _ _ _) fun _ => ?_
    exact .bind (.register fun _ _ => Callable.noConfusion) fun _ => .writeEntry _ _ _
  · exact .pure _

theorem blind_bindBase (type : TypeRef) (access : MemberAccess) (mode : BindingMode) :
    Blind swap (host.bindBase bind type access mode) := by
  rw [bindBase]
  split
  · exact (blind _ _ _).discard
  · exact .pure _

theorem blind_bindNested (type : TypeRef) (access : MemberAccess) (mode : BindingMode) :
    Blind swap (host.bindNested bind type access mode) := by
  refine .context (fun _ _ => rfl) fun context => ?_
  split
  · exact .forM _ fun nested => (blind _ _ _).discard
  · exact .pure _

theorem blind_bindAnew (type : TypeRef) (access : MemberAccess) (mode : BindingMode) :
    Blind swap (host.bindAnew bind type access mode) := by
  refine .bind (blind_bindBase blind type access mode) fun _ => .bind (blind_openBinding type mode) fun table => ?_
  refine .bind (blind_installMembers blind type access mode) fun _ => .bind (blind_pushBy blind _) fun marker => ?_
  refine .bind (.writeEntry _ _ _) fun _ => .bind (blind_installEnumeration blind type table) fun _ => ?_
  refine .bind (blind_installConstructor type) fun _ => .bind (blind_bindNested blind type access mode) fun _ => ?_
  exact .bind (.count _) fun _ => .pure _

end Binders

theorem blind_bindWithin (depth : Nat) (type : TypeRef) (access : MemberAccess) (mode : BindingMode) :
    Blind swap (host.bindWithin depth type access mode) := by
  induction depth generalizing type access mode with
  | zero => exact .throw _
  | succ depth ih =>
      refine .context (fun _ _ => rfl) fun context => ?_
      split
      · exact .pure _
      · exact blind_bindAnew ih type access mode

theorem blind_bindWith (type : TypeRef) (access : MemberAccess) (mode : BindingMode) :
    Blind swap (host.bindWith type access mode) :=
  blind_bindWithin _ type access mode

theorem blind_ensureBound (type : TypeRef) : Blind swap (Bridge.asScript (host.ensureBound type)) :=
  (blind_ensureBoundBy blind_bindWith type).asScript

theorem blind_push (value : HostValue) : Blind swap (Bridge.asScript (host.push value)) :=
  (blind_pushBy blind_bindWith value).asScript

theorem blind_loadClass (type : TypeRef) : Blind swap (Bridge.asScript (host.loadClass type)) := by
  refine Blind.asScript (.bind ?_ fun _ => .pure _)
  exact .context (fun _ _ => rfl) fun context => blind_bindWith type _ _

/-- Making the member of a placeholder registers what the catalog of its type has. -/
theorem blind_resolveMember (member : PendingMember) : Blind swap (host.resolveMember member) := by
  refine .context (fun _ _ => rfl) fun context => ?_
  split
  · exact .throw _
  · split
    · exact .pure _
    · refine .bind blind_extensionMap fun extensions => ?_
      dsimp only
      split
      · exact .throw _
      · refine .bind (Blind.asScript (.register fun name body same => ?_)) fun handle => ?_
        · exact Callable.ofMember_ne_embedder _ _ _ name body same
        · exact .bind (.rebind _ _) fun _ => .bind (.count _) fun _ => .pure _

end Host

end ScriptBridge
