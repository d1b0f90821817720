import ScriptBridge.Proofs.Tables.Settled

/-!
# Building up contexts

Binding types in the configured way is a chain of small steps, each of which works on the
type whose binding was opened last. No binding ends before its type is settled. So when
nothing is left to be ended, every type that is bound is settled; and the types that are
bound are just those that are needed for the types that were asked for.
-/

namespace ScriptBridge.Host

open Bridge

/--
A change while types among some are bound in the configured way, together with the types
whose binding was opened and has not ended, the last one first.
-/
inductive BuildStep (host : Host) (config : Config) (store : HostStore) (among : TypeRef → Prop) :
    List TypeRef × World → List TypeRef × World → Prop
  | aside {begun : List TypeRef} {before after : World} (aside : before.Aside after) :
      BuildStep host config store among (begun, before) (begun, after)
  | opened {begun : List TypeRef} {type : TypeRef} {table : TableId} {before after : World} (present : among type)
      (opened : host.Opened type config.mode before (.ok table, after)) :
      BuildStep host config store among (begun, before) (type :: begun, after)
  /-- What the type hands out is entered into its table. -/
  | entered {begun : List TypeRef} {type : TypeRef} {table : TableId} {name : String} {value : HostValue}
      {shown : ScriptValue} {world : World} (placed : world.context.namespaces.table? type = some table)
      (offered : (name, value) ∈ host.offers type config.access store) (noTable : shown.asTable? = none) :
      BuildStep host config store among (type :: begun, world)
        (type :: begun, { world with context := { world.context with
            heap := world.context.heap.set table (.string name) shown } })
  | rebound {begun : List TypeRef} {type : TypeRef} (world : World) (change : TypeBinding → TypeBinding) :
      BuildStep host config store among (type :: begun, world)
        (type :: begun, { world with context := world.context.modifyBinding type change })
  | ended {begun : List TypeRef} {type : TypeRef} {world : World}
      (settled : world.context.Settled host config store type) :
      BuildStep host config store among (type :: begun, world) (begun, world)

/-- The world is reached from a start by steps, and the bindings of some types have not ended. -/
def building (host : Host) (config : Config) (store : HostStore) (among : TypeRef → Prop) (start : World)
    (begun : List TypeRef) : Invariant where
  holds world := host.Configured config store world ∧
    Relation.ReflTransGen (host.BuildStep config store among) ([], start) (begun, world)
  excuses := fun _ => True

variable {host : Host} {config : Config} {store : HostStore} {among : TypeRef → Prop} {start world after : World}
  {begun : List TypeRef} {type : TypeRef} {table : TableId} {bind : Binder}

theorem building_step {later : List TypeRef} (holds : (host.building config store among start begun).holds world)
    (step : host.BuildStep config store among (begun, world) (later, after))
    (binds : Relation.ReflTransGen host.BindStep world after) :
    (host.building config store among start later).holds after :=
  ⟨holds.1.of_bindSteps binds, holds.2.tail step⟩

/-! ## The parts of binding a type -/

theorem building_register {callable : Callable} {handle : CallableHandle}
    (holds : (host.building config store among start begun).holds world)
    (run : exec (Bridge.register callable) world = (.ok handle, after)) :
    (host.building config store among start begun).holds after := by
  have only := (registers_register callable world).1
  rw [run] at only
  exact building_step holds (.aside (.of_onlyRegistered only)) ((binds_register callable).chain run)

theorem aside_withExtensions (host : Host) (world : World) : world.Aside (host.withExtensions world) := by
  rcases host.withExtensions_eq world with same | ⟨-, same⟩
  · rw [same]
    exact ⟨.refl _, .inl rfl, rfl⟩
  · rw [same]
    exact ⟨.refl _, .inl rfl, rfl⟩

theorem keptBy_pushBy_building {value : HostValue}
    (others : ∀ carried, value.toScript? = none → store.typeOf? value = some carried →
      (host.building config store among start begun).KeptBy (bind carried config.access config.mode)) :
    (host.building config store among start begun).KeptBy (pushBy bind value) := by
  intro world holds
  rw [pushBy]
  cases simple : value.toScript? with
  | some result => exact .inl holds
  | none =>
      simp only [exec_bind_of_ok (exec_store world)]
      rw [holds.1.store_eq]
      cases typed : store.typeOf? value with
      | none => exact .inl holds
      | some carried =>
          have ensures : (host.building config store among start begun).KeptBy (ensureBoundBy bind carried) := by
            intro world holds
            rw [ensureBoundBy, exec_bind_of_ok (exec_context world), holds.1.config_eq]
            split
            · exact (others carried simple typed).discard world holds
            · exact .inl holds
          refine (ensures world holds).bind fun _ after _ holds => .inl ?_
          rw [exec_bind_of_ok (exec_represent value _ after)]
          refine building_step holds (.aside ⟨.refl _, .inr ⟨value, carried, rfl⟩, rfl⟩) (.single ?_)
          exact .represent after value carried simple (by rw [holds.1.store_eq, typed])

section Furnish

variable (binds : ∀ type access mode, host.Binds (bind type access mode))
  (others : ∀ next, host.Needs config store type next →
    (host.building config store among start (type :: begun)).KeptBy (bind next config.access config.mode))

theorem keptBy_writeEntry_building {name : String} {value : HostValue} {shown : ScriptValue}
    (offered : (name, value) ∈ host.offers type config.access store) (noTable : shown.asTable? = none) :
    (placing (host.building config store among start (type :: begun)) type table).KeptBy
      (Bridge.writeEntry table name shown : Bridge BindError Unit) :=
  .modifyContext fun world holds =>
    ⟨building_step holds.1 (.entered holds.2 offered noTable) (.single (.writeEntry world _ _ _)), holds.2⟩

include binds others

theorem keptBy_enter_building {name : String} {value : HostValue}
    (offered : (name, value) ∈ host.offers type config.access store) :
    (placing (host.building config store among start (type :: begun)) type table).KeptBy (do
      let shown ← pushBy bind value
      Bridge.writeEntry table name shown) := by
  intro world holds
  have pushes := @keptBy_pushBy_building host config store among start (type :: begun) bind value
    fun carried proxied typed => others carried (.carried offered proxied typed)
  refine (keptBy_placing pushes (binds_pushBy binds _) world holds).bind fun shown after run => ?_
  exact keptBy_writeEntry_building offered (asTable?_of_pushBy run) after

theorem keptBy_installConstants_building {constants : List (String × HostValue)}
    (offered : ∀ constant ∈ constants, constant ∈ host.offers type config.access store) :
    (placing (host.building config store among start (type :: begun)) type table).KeptBy
      (installConstants bind table constants) :=
  .forM _ fun constant listed => keptBy_enter_building binds others (offered constant listed)

theorem keptBy_installMembers_building :
    (host.building config store among start (type :: begun)).KeptBy
      (host.installMembers bind type config.access config.mode) := by
  refine Invariant.keptBy_of_ok (fun _ => trivial) fun world _ after holds run => ?_
  have installs := (binds_installMembers binds type config.access config.mode).chain run
  rcases filled_of_installMembers run with ⟨table, middle, placed, handing, filled⟩
  have collected := @exec_extensionMap BindError host world
  have started := building_step holds (.aside (host.aside_withExtensions world)) (binds_extensionMap.chain collected)
  have placedStill := table?_of_bindSteps (binds_extensionMap.chain collected) placed
  rw [holds.1.store_eq] at handing
  have handed := (keptBy_installConstants_building binds others fun _ => List.mem_append_left _).holds_of_ok
    ⟨started, placedStill⟩ handing
  refine ⟨holds.1.of_bindSteps installs, ?_⟩
  cases filled with
  | filled registered => exact (handed.1.2.tail (.aside (.of_onlyRegistered registered))).tail (.rebound _ _)

theorem keptBy_installEnumeration_building :
    (placing (host.building config store among start (type :: begun)) type table).KeptBy
      (host.installEnumeration bind type table) := by
  rw [installEnumeration]
  split
  next isEnumeration =>
    have offered : ∀ offer ∈ host.enumerated type, offer ∈ host.offers type config.access store :=
      fun _ listed => List.mem_append_right _ (List.mem_cons_of_mem _ listed)
    rw [enumerated, if_pos isEnumeration] at offered
    refine .bind (.forM _ fun member listed => ?_) fun _ => .bind ?_ fun cast => ?_
    · have valueOffered := offered (member.1, .enumeration type member.2)
        (List.mem_append_left _ (List.mem_map_of_mem listed))
      exact keptBy_enter_building binds others valueOffered
    · have registers : (host.building config store among start (type :: begun)).KeptBy
          (Bridge.register (.enumCast type)) :=
        Invariant.keptBy_of_ok (fun _ => trivial) fun _ _ _ => building_register
      exact keptBy_placing registers (@binds_register host _)
    · have castOffered := offered ("__CastFrom", .null) (List.mem_append_right _ List.mem_cons_self)
      exact keptBy_writeEntry_building castOffered rfl
  next => exact .pure _

omit binds in
theorem keptBy_bindNested_building :
    (host.building config store among start (type :: begun)).KeptBy
      (host.bindNested bind type config.access config.mode) := by
  intro world holds
  rw [bindNested, exec_bind_of_ok (exec_context world), holds.1.config_eq]
  split
  next configured =>
    have nests : (host.building config store among start (type :: begun)).KeptBy
        ((host.nestedToBind type .visible).forM fun nested => discard (bind nested config.access config.mode)) :=
      .forM _ fun nested listed => .discard (others nested (.nested configured listed))
    exact nests world holds
  next => exact .inl holds

omit binds others in
theorem keptBy_installConstructor_building :
    (host.building config store among start (type :: begun)).KeptBy (host.installConstructor type) := by
  refine Invariant.keptBy_of_ok (fun _ => trivial) fun world _ after holds run => ?_
  have constructed := host.constructed_installConstructor type world
  rw [run] at constructed
  refine ⟨holds.1.of_bindSteps ((binds_installConstructor type).chain run), ?_⟩
  cases constructed with
  | absent => exact holds.2
  | constructed registered => exact (holds.2.tail (.aside (.of_onlyRegistered registered))).tail (.rebound _ _)

theorem keptBy_furnish_building :
    (placing (host.building config store among start (type :: begun)) type table).KeptBy
      (host.furnish bind type config.access config.mode table) := by
  have members : (placing (host.building config store among start (type :: begun)) type table).KeptBy
      (host.installMembers bind type config.access config.mode) :=
    keptBy_placing (keptBy_installMembers_building binds others) (binds_installMembers binds _ _ _)
  have constructs : (placing (host.building config store among start (type :: begun)) type table).KeptBy
      (host.installConstructor type) :=
    keptBy_placing keptBy_installConstructor_building (binds_installConstructor type)
  have nests : (placing (host.building config store among start (type :: begun)) type table).KeptBy
      (host.bindNested bind type config.access config.mode) :=
    keptBy_placing (keptBy_bindNested_building others) (binds_bindNested binds _ _ _)
  have marks : ("UnderlyingSystemType", .type type) ∈ host.offers type config.access store :=
    List.mem_append_right _ List.mem_cons_self
  refine .bind members fun _ => ?_
  rw [← bind_assoc]
  refine .bind (keptBy_enter_building binds others marks) fun _ => ?_
  exact .bind (keptBy_installEnumeration_building binds others) fun _ => .bind constructs fun _ => nests

end Furnish

theorem keptBy_bindBase_building
    (others : ∀ base, host.system.base? type = some base →
      (host.building config store among start begun).KeptBy (bind base config.access config.mode)) :
    (host.building config store among start begun).KeptBy
      (host.bindBase bind type config.access config.mode) := by
  rw [bindBase]
  split
  next base known => exact .discard (others base known)
  next => exact .pure _

/-- Binding a type in the configured way opens its binding, and in the end its binding has ended. -/
theorem keptBy_bindWithin_building
    (closed : ∀ type next, among type → host.Needs config store type next → among next) (depth : Nat)
    {type : TypeRef} (present : among type) (begun : List TypeRef) :
    (host.building config store among start begun).KeptBy
      (host.bindWithin depth type config.access config.mode) := by
  induction depth generalizing type begun with
  | zero => exact .throw _
  | succ depth ih =>
      refine Invariant.keptBy_of_ok (fun _ => trivial) fun world table after holds run => ?_
      rcases exec_bindWithin_eq_ok run with
        ⟨binding, -, -, rfl⟩ | ⟨-, inner, based, opened, last, same, basing, opening, furnishing, rfl⟩
      · exact holds
      · rcases Nat.succ.inj same with rfl
        have binds := @binds_bindWithin host depth
        have openedHere := opening ▸ host.opened_openBinding type config.mode based
        have opens := (binds_openBinding type config.mode).chain opening
        have reached : (host.building config store among start begun).holds based :=
          (keptBy_bindBase_building fun base known => ih (closed type base present (.base known)) begun).holds_of_ok
            holds basing
        have started := building_step reached (.opened present openedHere) opens
        have others := fun next needed => ih (closed type next present needed) (type :: begun)
        have furnished := (keptBy_furnish_building binds others).holds_of_ok ⟨started, openedHere.placed⟩ furnishing
        -- The binding of the type ends when the type is settled.
        have settled : last.context.Settled host config store type := by
          refine settled_of_furnish started.1 ?_ (fun base known => ?_) furnishing
          · exact displaying_of_opened reached.1.stands reached.1.consistent openedHere
          · exact isBound_of_bindSteps opens (isBound_of_bindBase basing known)
        have ended := building_step furnished.1 (.ended settled) .refl
        exact building_step ended (.aside ⟨.refl _, .inl rfl, rfl⟩) (.single (.count _ _))

/-! ## What the steps keep -/

/-- Only types among the given ones are bound, if none is at the start. -/
theorem among_of_buildSteps (fresh : ∀ type, start.context.isBound type = false)
    {state : List TypeRef × World}
    (steps : Relation.ReflTransGen (host.BuildStep config store among) ([], start) state) :
    ∀ type, state.2.context.isBound type = true → among type := by
  induction steps with
  | refl =>
      intro type bound
      rw [fresh] at bound
      cases bound
  | tail _ step ih =>
      intro type bound
      cases step with
      | aside aside =>
          rw [aside.isBound_eq] at bound
          exact ih type bound
      | opened present opened =>
          rcases opened.isBound_iff.mp bound with rfl | before
          · exact present
          · exact ih type before
      | entered => exact ih type bound
      | rebound =>
          rw [Context.isBound_modifyBinding] at bound
          exact ih type bound
      | ended => exact ih type bound

/-- A type that was not bound at the start is settled once it is bound, unless its binding has not ended. -/
theorem settled_of_buildSteps (unbound : start.context.isBound type = false) {state : List TypeRef × World}
    (steps : Relation.ReflTransGen (host.BuildStep config store among) ([], start) state)
    (bound : state.2.context.isBound type = true) :
    type ∈ state.1 ∨ state.2.context.Settled host config store type := by
  induction steps with
  | refl =>
      rw [unbound] at bound
      cases bound
  | tail _ step ih =>
      cases step with
      | aside aside =>
          rw [aside.isBound_eq] at bound
          exact (ih bound).imp_right fun settled => settled.aside aside
      | @opened _ other _ _ _ _ opened =>
          by_cases same : other = type
          · exact .inl (same ▸ List.mem_cons_self)
          · have before := ih ((opened.isBound_iff.mp bound).resolve_left (Ne.symm same))
            exact before.imp (List.mem_cons_of_mem _) fun settled => settled.opened same opened
      | @entered _ other _ _ _ _ _ placed =>
          by_cases same : other = type
          · exact .inl (same ▸ List.mem_cons_self)
          · exact (ih bound).imp_right fun settled => settled.entered same placed _ _
      | @rebound _ other _ change =>
          by_cases same : other = type
          · exact .inl (same ▸ List.mem_cons_self)
          · rw [Context.isBound_modifyBinding] at bound
            exact (ih bound).imp_right fun settled => settled.rebound same change
      | @ended _ other _ settled =>
          rcases ih bound with listed | before
          · rcases List.mem_cons.mp listed with rfl | inRest
            · exact .inr settled
            · exact .inl inRest
          · exact .inr before

end ScriptBridge.Host
