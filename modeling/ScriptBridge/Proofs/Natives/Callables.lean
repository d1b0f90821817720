import ScriptBridge.Proofs.Natives.Lawful
import ScriptBridge.Proofs.Steps.Operations

/-!
# Callables that binding registers

Binding types, showing hidden members and resolving placeholders register lawful
callables only, and no other operation registers any, but for those that the embedder
hands over. Hence the callables of a context stay lawful.
-/

namespace ScriptBridge

/-- Every callable of the context is lawful, and the extension methods that it has collected are declared. -/
structure Context.Lawful (system : TypeSystem) (context : Context) : Prop where
  callables : ∀ callable ∈ context.callables, callable.Lawful system
  extensions : ∀ extensions, context.extensions = some extensions → extensions.DeclaredIn system

namespace Context.Lawful

variable {system later : TypeSystem} {before after : Context}

theorem change (lawful : before.Lawful system) (precedes : system.Precedes later)
    (callables : after.callables = before.callables) (extensions : after.extensions = before.extensions) :
    after.Lawful later where
  callables callable listed := (lawful.callables callable (callables ▸ listed)).later precedes
  extensions map known := (lawful.extensions map (extensions ▸ known)).later precedes

theorem push (lawful : before.Lawful system) {callable : Callable} (added : callable.Lawful system) :
    { before with callables := before.callables.push callable }.Lawful system where
  callables other listed := (Array.mem_push.mp listed).elim (lawful.callables other) fun same => same ▸ added
  extensions := lawful.extensions

theorem modifyBinding (lawful : before.Lawful system) (type : TypeRef) (change : TypeBinding → TypeBinding) :
    (before.modifyBinding type change).Lawful system := by
  rw [Context.modifyBinding_eq]
  exact lawful.change (.refl _) rfl rfl

end Context.Lawful

theorem Context.lawful_fresh (system : TypeSystem) (config : Config) (tag : CacheTag) :
    (Context.fresh config tag).Lawful system where
  callables := fun _ impossible => by simp [fresh] at impossible
  extensions := fun _ impossible => by cases impossible

namespace Host

open Bridge

/-- The callables of the context are lawful, whatever fails. -/
def lawfulness (host : Host) : Invariant where
  holds world := world.context.Lawful host.system
  excuses := fun _ => False

variable {host : Host} {ε : Type} [BindingFailure ε] {bind : Binder} {type : TypeRef}

theorem declaredIn_of_extensionsIn {world : World} (lawful : host.lawfulness.holds world) :
    ∀ map, host.extensionsIn world.context = some map → map.DeclaredIn host.system := by
  intro map given
  rw [extensionsIn] at given
  split at given
  · rcases Option.some.inj given with rfl
    cases known : world.context.extensions with
    | none => exact ExtensionMap.declaredIn_collect _ _
    | some extensions => exact lawful.extensions extensions known
  · cases given

theorem keptBy_extensionMap_lawfulness :
    host.lawfulness.KeptBy (host.extensionMap : Bridge ε (Option ExtensionMap)) := by
  refine fun world lawful => .inl ?_
  rw [exec_extensionMap]
  rcases host.withExtensions_eq world with same | ⟨-, collected⟩
  · rwa [same]
  · rw [collected]
    exact ⟨lawful.callables, fun map known => Option.some.inj known ▸ ExtensionMap.declaredIn_collect _ _⟩

theorem keptBy_register_lawfulness {callable : Callable} (lawful : callable.Lawful host.system) :
    host.lawfulness.KeptBy (Bridge.register callable) :=
  keptBy_register fun holds => Context.Lawful.push holds lawful

theorem keptBy_count_lawfulness (change : BindingCounters → BindingCounters) :
    host.lawfulness.KeptBy (Bridge.count change : Bridge ε Unit) :=
  .modifyContext fun _ lawful => lawful.change (.refl _) rfl rfl

theorem keptBy_writeEntry_lawfulness (id : TableId) (name : String) (value : ScriptValue) :
    host.lawfulness.KeptBy (Bridge.writeEntry id name value : Bridge ε Unit) :=
  .modifyContext fun _ lawful => lawful.change (.refl _) rfl rfl

theorem keptBy_rebind_lawfulness (type : TypeRef) (change : TypeBinding → TypeBinding) :
    host.lawfulness.KeptBy
      (Bridge.modifyContext fun context => context.modifyBinding type change : Bridge ε Unit) :=
  .modifyContext fun _ lawful => lawful.modifyBinding type change

theorem keptBy_installMember_lawfulness (access : MemberAccess) (mode : BindingMode) {member : CatalogMember}
    (declared : member.DeclaredBy host.system type) :
    host.lawfulness.KeptBy (host.installMember type access mode member) := by
  cases mode with
  | eager =>
      refine .bind (keptBy_count_lawfulness _) fun _ => .bind (keptBy_register_lawfulness ?_) fun _ => .pure _
      exact Callable.lawful_ofMember declared
  | «lazy» => exact .bind (keptBy_register_lawfulness trivial) fun _ => .pure _

theorem keptBy_installItems_lawfulness {indexers : List PropertyDef}
    (declared : ∀ property ∈ indexers, property ∈ (host.definition type).properties) :
    host.lawfulness.KeptBy (installItems type indexers) := by
  rw [installItems]
  split
  · exact .pure _
  · refine .bind (keptBy_register_lawfulness declared) fun _ => ?_
    exact .bind (keptBy_register_lawfulness declared) fun _ => .pure _

theorem keptBy_installConstructor_lawfulness (type : TypeRef) :
    host.lawfulness.KeptBy (host.installConstructor type) := by
  rw [installConstructor]
  split
  next => exact .pure _
  next callable given =>
    refine .bind (keptBy_register_lawfulness (Callable.lawful_constructor given)) fun _ => .bind .context fun _ => ?_
    split
    · exact .throw _
    · exact keptBy_rebind_lawfulness _ _

theorem keptBy_openBinding_lawfulness (type : TypeRef) (mode : BindingMode) :
    host.lawfulness.KeptBy (host.openBinding type mode) := by
  intro world lawful
  have opened := host.opened_openBinding type mode world
  generalize exec (host.openBinding type mode) world = run at opened
  cases opened with
  | failed => exact .inl lawful
  | opened placed => exact .inl (lawful.change (.refl _) rfl rfl)

section Binding

variable (binds : ∀ type access mode, host.Binds (bind type access mode))
  (kept : ∀ type access mode, host.lawfulness.KeptBy (bind type access mode))

include binds kept

theorem keptBy_pushBy_lawfulness (value : HostValue) : host.lawfulness.KeptBy (pushBy bind value) :=
  fun _ lawful => arrives_pushBy binds lawful (fun _ => kept _) fun _ _ _ _ holds =>
    holds.change (.refl _) rfl rfl

theorem keptBy_installConstants_lawfulness (table : TableId) (constants : List (String × HostValue)) :
    host.lawfulness.KeptBy (installConstants bind table constants) :=
  .forM _ fun _ _ => .bind (keptBy_pushBy_lawfulness binds kept _) fun _ => keptBy_writeEntry_lawfulness _ _ _

theorem keptBy_installMembers_lawfulness (regular : host.system.Regular) (type : TypeRef) (access : MemberAccess)
    (mode : BindingMode) : host.lawfulness.KeptBy (host.installMembers bind type access mode) := by
  refine .bind .context fun context => ?_
  split
  · exact .throw _
  · intro world lawful
    have known := declaredIn_of_extensionsIn lawful
    have collected := keptBy_extensionMap_lawfulness.holds_of_ok lawful (host.exec_extensionMap (ε := BindError) world)
    rw [exec_bind_of_ok (host.exec_extensionMap world)]
    refine Invariant.KeptBy.bind .store (fun store => ?_) _ collected
    refine .bind (keptBy_installConstants_lawfulness binds kept _ _) fun _ => ?_
    refine .bind (.mapM _ fun member listed => ?_) fun slots => .bind (.mapM _ fun entry listed => ?_) fun _ => ?_
    · exact keptBy_installMember_lawfulness _ _ (Catalog.declaredBy_of_mem known listed)
    · exact .bind (keptBy_register_lawfulness (Callable.lawful_ofOperator regular known listed)) fun _ => .pure _
    · refine .bind (keptBy_installItems_lawfulness fun _ => Callable.mem_properties_of_indexers) fun _ => ?_
      refine .bind .context fun context => ?_
      split
      · exact .throw _
      · exact keptBy_rebind_lawfulness _ _

theorem keptBy_installEnumeration_lawfulness (type : TypeRef) (table : TableId) :
    host.lawfulness.KeptBy (host.installEnumeration bind type table) := by
  rw [installEnumeration]
  split
  · refine .bind (.forM _ fun member _ => ?_) fun _ => ?_
    · exact .bind (keptBy_pushBy_lawfulness binds kept _) fun _ => keptBy_writeEntry_lawfulness _ _ _
    · exact .bind (keptBy_register_lawfulness trivial) fun _ => keptBy_writeEntry_lawfulness _ _ _
  · exact .pure _

theorem keptBy_bindAnew_lawfulness (regular : host.system.Regular) (type : TypeRef) (access : MemberAccess)
    (mode : BindingMode) : host.lawfulness.KeptBy (host.bindAnew bind type access mode) := by
  have others := BindsOthers.of_all binds kept type
  refine .bind (others.bindBase _ _) fun _ => .bind (keptBy_openBinding_lawfulness _ _) fun table => ?_
  refine .bind (keptBy_installMembers_lawfulness binds kept regular _ _ _) fun _ => ?_
  refine .bind (keptBy_pushBy_lawfulness binds kept _) fun _ => .bind (keptBy_writeEntry_lawfulness _ _ _) fun _ => ?_
  refine .bind (keptBy_installEnumeration_lawfulness binds kept _ _) fun _ => ?_
  refine .bind (keptBy_installConstructor_lawfulness _) fun _ => .bind (others.bindNested _ _) fun _ => ?_
  exact .bind (keptBy_count_lawfulness _) fun _ => .pure _

end Binding

theorem keptBy_bindWithin_lawfulness (regular : host.system.Regular) (depth : Nat) (type : TypeRef)
    (access : MemberAccess) (mode : BindingMode) :
    host.lawfulness.KeptBy (host.bindWithin depth type access mode) := by
  induction depth generalizing type access mode with
  | zero => exact .throw _
  | succ depth ih =>
      refine .bind .context fun context => ?_
      split
      · exact .pure _
      · exact keptBy_bindAnew_lawfulness (binds_bindWithin depth) ih regular _ _ _

theorem keptBy_showHiddenWithin_lawfulness (regular : host.system.Regular) (depth : Nat) (type : TypeRef) :
    host.lawfulness.KeptBy (host.showHiddenWithin depth type) := by
  have kept : ∀ type access mode, host.lawfulness.KeptBy (host.bindWith type access mode) :=
    keptBy_bindWithin_lawfulness regular _
  induction depth generalizing type with
  | zero => exact .throw _
  | succ depth ih =>
      refine .bind .context fun context => ?_
      split
      · exact .throw _
      · split
        · exact .pure _
        · refine .bind (keptBy_installMembers_lawfulness binds_bindWith kept regular _ _ _) fun _ => ?_
          refine .bind (keptBy_rebind_lawfulness _ _) fun _ => .forM _ fun nested _ => ?_
          exact .bind .context fun _ => .bind (.discard (kept _ _ _)) fun _ => ih nested

theorem keptBy_resolveMember_lawfulness (member : PendingMember) :
    host.lawfulness.KeptBy (host.resolveMember member) := by
  intro world lawful
  have known := declaredIn_of_extensionsIn lawful
  have collected := keptBy_extensionMap_lawfulness.holds_of_ok lawful (host.exec_extensionMap (ε := ScriptError) world)
  rw [resolveMember, exec_bind_of_ok (exec_context world)]
  split
  · exact .inl lawful
  · split
    · exact .inl lawful
    · rw [exec_bind_of_ok (host.exec_extensionMap world)]
      dsimp only
      split
      · exact .inl collected
      next found listed =>
        have declared := Catalog.declaredBy_of_mem known (List.mem_of_find?_eq_some listed)
        refine Invariant.KeptBy.bind ?_ (fun handle => ?_) _ collected
        · exact (keptBy_register_lawfulness (Callable.lawful_ofMember declared)).asScript
        · refine .bind (keptBy_rebind_lawfulness _ _) fun _ => ?_
          exact .bind (keptBy_count_lawfulness _) fun _ => .pure _

/-- All that operations do keeps the callables of a context lawful, if the declarations are regular. -/
theorem respects_lawfulness (regular : host.system.Regular) : host.RespectsWrites host.lawfulness where
  toKeptOutside := keptOutside_of_steps fun step lawful => by
    cases step <;> exact lawful.change (.refl _) rfl rfl
  writeKey _ _ _ lawful := lawful.change (.refl _) rfl rfl
  represent _ _ lawful := lawful.change (.refl _) rfl rfl
  countResolution _ lawful := lawful.change (.refl _) rfl rfl
  bindWith := keptBy_bindWithin_lawfulness regular _
  showHidden type := keptBy_showHiddenWithin_lawfulness regular _ type
  resolveMember := keptBy_resolveMember_lawfulness

/-- Every operation keeps the callables lawful, if those that the embedder registers are. -/
theorem lawful_perform (regular : host.system.Regular) {operation : Operation} {world : World}
    (registers : ∀ callable, operation = .register callable → callable.Lawful host.system)
    (lawful : world.context.Lawful host.system) :
    (exec (host.perform operation) world).2.context.Lawful host.system := by
  have kept := (respects_lawfulness regular).perform operation
    (fun callable same => keptBy_register_lawfulness (registers callable same))
    fun type _ => keptBy_unbind type fun world lawful => lawful.change (.refl _) rfl rfl
  exact (kept world lawful).holds fun _ => id

end Host

end ScriptBridge
