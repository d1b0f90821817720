import ScriptBridge.Proofs.Namespaces.Conflicts
import ScriptBridge.Proofs.Tables.Settled

/-!
# Types that are bound again at once

Where all that a type needs is bound, binding the type binds nothing else. Then there is
hardly anything that can fail: the table of the type is where it was, and what the type
hands out has a run-time type. Only callables can run out.
-/

namespace ScriptBridge.Host

open Bridge

variable {host : Host} {config : Config} {store : HostStore} {type : TypeRef} {table : TableId} {world after : World}
  {α β : Type}

/-- The run succeeds, or it fails because no more callables can be registered. -/
def Limited (run : Except BindError α × World) : Prop := ∀ error, run.1 = .error error → error = .callableLimit

theorem Limited.ok (value : α) (world : World) : Limited (.ok value, world) := nofun

theorem Limited.bind {action : Bridge BindError α} {next : α → Bridge BindError β}
    (first : Limited (exec action world))
    (rest : ∀ value after, exec action world = (.ok value, after) → Limited (exec (next value) after)) :
    Limited (exec (action >>= next) world) := by
  rw [exec_bind]
  cases run : exec action world with
  | mk result after =>
      cases result with
      | ok value => exact rest value after run
      | error error => exact fun told same => Except.error.inj same ▸ first error (by rw [run])

theorem Limited.discard {action : Bridge BindError α} (limited : Limited (exec action world)) :
    Limited (exec (discard action) world) := by
  rw [Functor.discard, Functor.mapConst]
  exact limited.bind fun _ _ _ => .ok _ _

/-- The type and all that it needs is bound, and the type has a table. -/
structure Provided (host : Host) (config : Config) (store : HostStore) (type : TypeRef) (world : World) : Prop where
  config_eq : world.context.config = config
  store_eq : world.store = store
  bound : world.context.isBound type = true
  placed : ∃ table, world.context.namespaces.table? type = some table
  needs : ∀ next, host.Needs config store type next → world.context.isBound next = true

theorem Provided.of_bindSteps (provided : host.Provided config store type world)
    (steps : Relation.ReflTransGen host.BindStep world after) : host.Provided config store type after where
  config_eq := (config_eq_of_bindSteps steps).trans provided.config_eq
  store_eq := (store_eq_of_bindSteps steps).trans provided.store_eq
  bound := isBound_of_bindSteps steps provided.bound
  placed := provided.placed.imp fun _ => table?_of_bindSteps steps
  needs next needed := isBound_of_bindSteps steps (provided.needs next needed)

/-- A part of binding the type, which fails only if no more callables can be registered. -/
structure Furthers (host : Host) (config : Config) (store : HostStore) (type : TypeRef) (action : Bridge BindError α) :
    Prop where
  binds : host.Binds action
  limited : ∀ world, host.Provided config store type world → Limited (exec action world)

namespace Furthers

theorem pure (value : α) : host.Furthers config store type (Pure.pure value) := ⟨.pure value, fun _ _ => .ok _ _⟩

theorem bind {action : Bridge BindError α} {next : α → Bridge BindError β}
    (first : host.Furthers config store type action) (rest : ∀ value, host.Furthers config store type (next value)) :
    host.Furthers config store type (action >>= next) := by
  refine ⟨.bind first.binds fun value => (rest value).binds, fun world provided => ?_⟩
  refine (first.limited world provided).bind fun value after run => ?_
  exact (rest value).limited after (provided.of_bindSteps (first.binds.chain run))

theorem forM {items : List α} {next : α → Bridge BindError Unit}
    (each : ∀ item ∈ items, host.Furthers config store type (next item)) :
    host.Furthers config store type (items.forM next) := by
  induction items with
  | nil => exact pure ()
  | cons item rest ih =>
      refine (each item List.mem_cons_self).bind fun _ => ?_
      exact ih fun other listed => each other (List.mem_cons_of_mem _ listed)

theorem mapM {items : List α} {next : α → Bridge BindError β}
    (each : ∀ item, host.Furthers config store type (next item)) :
    host.Furthers config store type (items.mapM next) := by
  induction items with
  | nil => exact pure []
  | cons item rest ih =>
      rw [List.mapM_cons]
      exact (each item).bind fun _ => ih.bind fun _ => pure _

theorem modifyContext {change : Context → Context}
    (binds : host.Binds (Bridge.modifyContext change : Bridge BindError Unit)) :
    host.Furthers config store type (Bridge.modifyContext change) :=
  ⟨binds, fun _ _ => .ok _ _⟩

theorem register (callable : Callable) : host.Furthers config store type (Bridge.register callable) := by
  refine ⟨binds_register callable, fun world _ error failed => ?_⟩
  rcases Nat.lt_or_ge world.context.callables.size UInt32.size with room | full
  · rw [exec_register_of_room room] at failed
    cases failed
  · rw [exec_register_of_full full] at failed
    exact (Except.error.inj failed).symm

theorem bindWith {next : TypeRef} (needed : host.Needs config store type next) (access : MemberAccess)
    (mode : BindingMode) : host.Furthers config store type (host.bindWith next access mode) := by
  refine ⟨binds_bindWith next access mode, fun world provided => ?_⟩
  rcases Option.isSome_iff_exists.mp (provided.needs next needed) with ⟨binding, bound⟩
  rw [exec_bindWith_of_bound bound]
  exact .ok _ _

/-- What the type hands out has a run-time type, which is bound. -/
theorem pushBy (live : ∀ offer ∈ host.offers type config.access store, offer.2.toScript? = none →
      (store.typeOf? offer.2).isSome = true) {offer : String × HostValue}
    (offered : offer ∈ host.offers type config.access store) :
    host.Furthers config store type (Host.pushBy host.bindWith offer.2) := by
  refine ⟨binds_pushBy binds_bindWith _, fun world provided => ?_⟩
  rw [Host.pushBy]
  cases simple : offer.2.toScript? with
  | some shown => exact .ok _ _
  | none =>
      rcases Option.isSome_iff_exists.mp (live offer offered simple) with ⟨carried, typed⟩
      simp only [exec_bind_of_ok (exec_store world), provided.store_eq, typed]
      have bound := provided.needs carried (.carried offered simple typed)
      refine Limited.bind ?_ fun _ after _ => ?_
      · rw [ensureBoundBy, exec_bind_of_ok (exec_context world), bound]
        exact .ok _ _
      · rw [exec_bind_of_ok (exec_represent _ carried after)]
        exact .ok _ _

section Parts

variable (live : ∀ offer ∈ host.offers type config.access store, offer.2.toScript? = none →
  (store.typeOf? offer.2).isSome = true)

include live

/-- What the type hands out is entered into a table. -/
theorem enter {offer : String × HostValue} (offered : offer ∈ host.offers type config.access store)
    (table : TableId) :
    host.Furthers config store type (do
      let shown ← Host.pushBy host.bindWith offer.2
      Bridge.writeEntry table offer.1 shown) :=
  (pushBy live offered).bind fun _ => .modifyContext (binds_writeEntry _ _ _)

omit live in
theorem installMember (access : MemberAccess) (mode : BindingMode) (member : CatalogMember) :
    host.Furthers config store type (host.installMember type access mode member) := by
  cases mode with
  | eager => exact .bind (.modifyContext (binds_count _)) fun _ => .bind (.register _) fun _ => .pure _
  | «lazy» => exact .bind (.register _) fun _ => .pure _

omit live in
theorem installItems (indexers : List PropertyDef) :
    host.Furthers config store type (Host.installItems type indexers) := by
  rw [Host.installItems]
  split
  · exact .pure _
  · exact .bind (.register _) fun _ => .bind (.register _) fun _ => .pure _

omit live in
/-- The tables of a type that is bound can be filled. -/
theorem fillTables (access : MemberAccess) (mode : BindingMode) (catalog : Catalog) :
    host.Furthers config store type (host.fillTables type access mode catalog) := by
  have registers : host.Furthers config store type (host.registerMembers type access mode catalog) := by
    refine .bind (.mapM fun member => installMember access mode member) fun slots => ?_
    refine .bind (.mapM fun entry => .bind (.register _) fun _ => .pure _) fun operators => ?_
    exact .bind (installItems _) fun _ => .pure _
  have binds : host.Binds (host.fillTables type access mode catalog) := by
    refine .bind registers.binds fun filling => .bind .context fun context => ?_
    split
    · exact .throw _
    · exact binds_rebind type _
  refine ⟨binds, fun world provided => ?_⟩
  refine (registers.limited world provided).bind fun filling after run => ?_
  have bound := isBound_of_bindSteps (registers.binds.chain run) provided.bound
  rw [exec_bind_of_ok (exec_context after), bound]
  exact .ok _ _

theorem installMembers (mode : BindingMode) :
    host.Furthers config store type (host.installMembers host.bindWith type config.access mode) := by
  refine ⟨binds_installMembers binds_bindWith _ _ _, fun world provided => ?_⟩
  rcases provided.placed with ⟨table, placed⟩
  have collected := @exec_extensionMap BindError host world
  have providedThen := provided.of_bindSteps (binds_extensionMap.chain collected)
  rw [installMembers_eq, exec_bind_of_ok (exec_context world), placed]
  dsimp only
  rw [exec_bind_of_ok collected, exec_bind_of_ok (exec_store _), store_withExtensions, provided.store_eq]
  have installs : host.Furthers config store type (installConstants host.bindWith table
      (host.captured type config.access store)) :=
    .forM fun constant listed => enter live (List.mem_append_left _ listed) table
  exact (installs.bind fun _ => fillTables config.access mode _).limited _ providedThen

theorem installEnumeration (table : TableId) :
    host.Furthers config store type (host.installEnumeration host.bindWith type table) := by
  rw [Host.installEnumeration]
  split
  next isEnumeration =>
    refine .bind (.forM fun member listed => ?_) fun _ =>
      .bind (.register _) fun _ => .modifyContext (binds_writeEntry _ _ _)
    have offered : (member.1, .enumeration type member.2) ∈ host.offers type config.access store := by
      refine List.mem_append_right _ (List.mem_cons_of_mem _ ?_)
      rw [enumerated, if_pos isEnumeration]
      exact List.mem_append_left _ (List.mem_map_of_mem listed)
    exact enter live offered table
  next => exact .pure _

omit live in
theorem installConstructor : host.Furthers config store type (host.installConstructor type) := by
  refine ⟨binds_installConstructor type, fun world provided => ?_⟩
  rw [Host.installConstructor]
  split
  next => exact .ok _ _
  next callable _ =>
    have registers := @register host config store type callable
    refine (registers.limited world provided).bind fun handle after run => ?_
    have bound := isBound_of_bindSteps (registers.binds.chain run) provided.bound
    rw [exec_bind_of_ok (exec_context after), bound]
    exact .ok _ _

omit live in
theorem bindNested (access : MemberAccess) (mode : BindingMode) :
    host.Furthers config store type (host.bindNested host.bindWith type access mode) := by
  refine ⟨binds_bindNested binds_bindWith _ _ _, fun world provided => ?_⟩
  rw [Host.bindNested, exec_bind_of_ok (exec_context world), provided.config_eq]
  split
  next configured =>
    have nests : host.Furthers config store type
        ((host.nestedToBind type .visible).forM fun nested => discard (host.bindWith nested access mode)) :=
      .forM fun nested listed =>
        ⟨.discard (binds_bindWith _ _ _), fun world provided =>
          ((bindWith (.nested configured listed) access mode).limited world provided).discard⟩
    exact nests.limited world provided
  next => exact .ok _ _

theorem furnish (mode : BindingMode) (table : TableId) :
    host.Furthers config store type (host.furnish host.bindWith type config.access mode table) := by
  have marks : ("UnderlyingSystemType", .type type) ∈ host.offers type config.access store :=
    List.mem_append_right _ List.mem_cons_self
  refine .bind (installMembers live mode) fun _ => ?_
  rw [← bind_assoc]
  refine .bind (enter live marks table) fun _ => ?_
  exact .bind (installEnumeration live table) fun _ => .bind installConstructor fun _ => bindNested _ _

end Parts

end Furthers

/-- A type that is known to be at a table can be opened. -/
theorem exists_openBinding {known : TypeRef → TableId → Prop} (apart : host.NamesApart)
    (surveyed : world.context.Surveyed host known) (at_ : known type table) (mode : BindingMode) :
    ∃ opened after, exec (host.openBinding type mode) world = (.ok opened, after) := by
  rcases surveyed.tables with ⟨placed, orderly, remembers, -⟩
  simp only [openBinding, exec_bind, exec_context, exec_ofExcept]
  cases made : world.context.namespaces.place host.system world.context.heap type with
  | ok result => exact ⟨_, _, rfl⟩
  | error error =>
      rcases orderly.place_eq_error apart made with ⟨other, id, different, there, samePath⟩
      exact absurd (orderly.type_unique (remembers type table at_) there samePath) different

/--
A type that has its table still can be bound if the other types that it needs are bound and what it hands out is there;
no other type is bound on the way, and only callables can run out.
-/
theorem limited_bindWith {known : TypeRef → TableId → Prop} (apart : host.NamesApart)
    (surveyed : world.context.Surveyed host known) (at_ : known type table) (config_eq : world.context.config = config)
    (needs : ∀ next, host.Needs config world.store type next → next ≠ type → world.context.isBound next = true)
    (live : ∀ offer ∈ host.offers type config.access world.store, offer.2.toScript? = none →
      (world.store.typeOf? offer.2).isSome = true) :
    Limited (exec (host.bindWith type config.access config.mode) world) := by
  cases found : world.context.binding? type with
  | some binding =>
      rw [exec_bindWith_of_bound found]
      exact .ok _ _
  | none =>
      rw [bindWith_eq_unfolded, unfolded, exec_bind_of_ok (exec_context world), found]
      dsimp only
      rw [bindAnew_eq]
      have based : exec (host.bindBase host.bindWith type config.access config.mode) world = (.ok (), world) := by
        rw [bindBase]
        split
        next base isBase =>
          have different : base ≠ type := fun same => Nat.lt_irrefl _ (same ▸ TypeSystem.rank_lt_of_base? isBase)
          rcases Option.isSome_iff_exists.mp (needs base (.base isBase) different) with ⟨binding, bound⟩
          rw [exec_discard, exec_bindWith_of_bound bound]
          rfl
        next => rfl
      rcases exists_openBinding apart surveyed at_ config.mode with ⟨opened, after, opening⟩
      have openedHere := opening ▸ host.opened_openBinding type config.mode world
      have steps := (binds_openBinding type config.mode).chain opening
      have provided : host.Provided config world.store type after := by
        refine ⟨(config_eq_of_bindSteps steps).trans config_eq, store_eq_of_bindSteps steps,
          openedHere.isBound_iff.mpr (.inl rfl), ⟨_, openedHere.placed⟩, fun next needed => ?_⟩
        by_cases same : next = type
        · exact openedHere.isBound_iff.mpr (.inl same)
        · exact openedHere.isBound_iff.mpr (.inr (needs next needed same))
      rw [exec_bind_of_ok based, exec_bind_of_ok opening]
      refine ((Furthers.furnish live config.mode opened).limited after provided).bind fun _ last _ => ?_
      exact .ok _ _

end ScriptBridge.Host
