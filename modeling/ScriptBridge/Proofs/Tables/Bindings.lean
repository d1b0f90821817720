import ScriptBridge.Proofs.Tables.AddedLater

/-!
# What holds of every binding

Something that bare bindings have, and that filling, constructors, shown hidden members
and made members keep, holds of all bindings of a context at all times. So no slot waits
for its member in a binding whose members are made as the type is bound.
-/

namespace ScriptBridge

/-- Something that every change of a binding keeps; members are put into it in its own mode. -/
structure Host.KeepsBindings (host : Host) (good : TypeBinding → Prop) : Prop where
  bare : ∀ type mode table, good (.bare host.system type mode table)
  fill : ∀ {type access catalog filling callables} {binding : TypeBinding}, good binding →
    host.Makes type access binding.mode catalog filling callables → good (binding.fill filling)
  construct : ∀ {binding : TypeBinding} handle, good binding → good { binding with constructor := some handle }
  showHidden : ∀ {binding : TypeBinding}, good binding → good { binding with showsHidden := true }
  make : ∀ {binding : TypeBinding} place handle, good binding →
    good { binding with slots := binding.slots.insert place (.bound handle) }

/-- Something holds of every binding of the context. -/
def Invariant.everyBinding (good : TypeBinding → Prop) : Invariant where
  holds world := ∀ type binding, world.context.binding? type = some binding → good binding
  excuses := fun _ => False

namespace Host

open Bridge

variable {host : Host} {good : TypeBinding → Prop} {type : TypeRef} {world after : World} {depth : Nat}

theorem everyBinding_of_bindings_eq (same : after.context.bindings = world.context.bindings)
    (holds : (Invariant.everyBinding good).holds world) : (Invariant.everyBinding good).holds after := by
  intro other binding bound
  rw [Context.binding?, same] at bound
  exact holds other binding bound

theorem everyBinding_modifyBinding {change : TypeBinding → TypeBinding}
    (holds : (Invariant.everyBinding good).holds world)
    (changes : ∀ binding, world.context.binding? type = some binding → good binding → good (change binding)) :
    (Invariant.everyBinding good).holds { world with context := world.context.modifyBinding type change } := by
  intro other binding bound
  rw [Context.binding?_modifyBinding] at bound
  split at bound
  next =>
    rcases Option.map_eq_some_iff.mp bound with ⟨found, present, rfl⟩
    exact changes found present (holds type found present)
  next => exact holds other binding bound

/-- Installing the members of a bound type in the mode of its binding. -/
theorem arrives_installMembers_everyBinding (keeps : host.KeepsBindings good)
    (kept : ∀ type access mode, (Invariant.everyBinding good).KeptBy (host.bindWithin depth type access mode))
    {access : MemberAccess} {mode : BindingMode}
    (holds : (Invariant.everyBinding good).holds world)
    (own : (Invariant.boundAs type (·.mode = mode)).holds world) :
    (Invariant.everyBinding good).Arrives
      (exec (host.installMembers (host.bindWithin depth) type access mode) world) := by
  rw [installMembers_eq, exec_bind_of_ok (exec_context world)]
  split
  next => exact .inl holds
  next table _ =>
    rw [exec_bind_of_ok (host.exec_extensionMap world), exec_bind_of_ok (exec_store _)]
    have same := host.bindings_withExtensions world
    have constants : ((Invariant.everyBinding good).both (.boundAs type (·.mode = mode))).KeptBy
        (installConstants (host.bindWithin depth) table
          ((Catalog.ofType host.system type access (host.extensionsIn world.context)).constants.map fun constant =>
            (constant.1, constantValue (host.withExtensions world).store constant.2))) := by
      refine .both (.forM _ fun constant _ => .bind (fun world holds => ?_) fun value => .modifyContext fun _ => id)
        (keptBy_installConstants_boundAs _ _ _)
      exact arrives_pushBy (binds_bindWithin depth) holds (fun _ => kept _) fun _ _ _ _ => id
    have started := constants _ ⟨everyBinding_of_bindings_eq same holds, boundAs_of_bindings_eq same own⟩
    have reached := started.holds fun _ excused => excused.elim id id
    rw [exec_bind]
    split
    next middle run =>
      rw [run] at reached
      rcases reached with ⟨holds, found, bound, rfl⟩
      have filled := host.filled_fillTables type access found.mode
        (.ofType host.system type access (host.extensionsIn world.context)) middle
      generalize exec (host.fillTables type access found.mode _) middle = last at filled
      cases filled with
      | failed registered => exact .inl (everyBinding_of_bindings_eq registered.bindings_eq holds)
      | filled registered _ makes =>
          refine .inl (everyBinding_modifyBinding (everyBinding_of_bindings_eq registered.bindings_eq holds) ?_)
          intro binding present isGood
          rw [Context.binding?, registered.bindings_eq] at present
          obtain rfl := Option.some.inj (bound.symm.trans present)
          exact keeps.fill isGood makes
    next failed run =>
      rw [run] at reached
      exact .inl reached.1

theorem everyBinding_opened (keeps : host.KeepsBindings good) {mode : BindingMode}
    {run : Except BindError TableId × World} (holds : (Invariant.everyBinding good).holds world)
    (opened : host.Opened type mode world run) : (Invariant.everyBinding good).holds run.2 := by
  cases opened with
  | failed => exact holds
  | opened =>
      intro other binding bound
      rcases FinMap.eq_or_get?_of_insert bound with ⟨rfl, rfl⟩ | earlier
      · exact keeps.bare other mode _
      · exact holds other binding earlier

theorem mode_of_opened {mode : BindingMode} {table : TableId}
    (opened : host.Opened type mode world (.ok table, after)) :
    (Invariant.boundAs type (·.mode = mode)).holds after := by
  cases opened with
  | opened placed => exact ⟨_, FinMap.get?_insert_self _ _ _, rfl⟩

theorem keptBy_bindWithin_everyBinding (keeps : host.KeepsBindings good) (depth : Nat) (type : TypeRef)
    (access : MemberAccess) (mode : BindingMode) :
    (Invariant.everyBinding good).KeptBy (host.bindWithin depth type access mode) := by
  induction depth generalizing type access mode with
  | zero => exact .throw _
  | succ depth ih =>
      have pushes (value : HostValue) : (Invariant.everyBinding good).KeptBy (pushBy (host.bindWithin depth) value) :=
        fun _ holds => arrives_pushBy (binds_bindWithin depth) holds (fun _ => ih _) fun _ _ _ _ => id
      have others := BindsOthers.of_all (binds_bindWithin depth) ih type
      have finishes (table : TableId) : (Invariant.everyBinding good).KeptBy
          (host.finish (host.bindWithin depth) type access mode table) := by
        refine .bind (pushes _) fun _ => .bind (.modifyContext fun _ => id) fun _ => .bind ?_ fun _ => .bind ?_ fun _ =>
          others.bindNested access mode
        · rw [installEnumeration]
          split
          · refine .bind (.forM _ fun member _ => .bind (pushes _) fun _ => .modifyContext fun _ => id) fun _ => ?_
            exact .bind (keptBy_register id) fun _ => .modifyContext fun _ => id
          · exact .pure _
        · intro world holds
          have constructed := host.constructed_installConstructor type world
          generalize exec (host.installConstructor type) world = run at constructed
          cases constructed with
          | absent => exact .inl holds
          | failed registered => exact .inl (everyBinding_of_bindings_eq registered.bindings_eq holds)
          | constructed registered =>
              exact .inl (everyBinding_modifyBinding (everyBinding_of_bindings_eq registered.bindings_eq holds)
                fun binding _ => keeps.construct _)
      refine .bind .context fun context => ?_
      split
      · exact .pure _
      · rw [bindAnew_eq]
        refine .bind (others.bindBase access mode) fun _ world holds => ?_
        have opened := host.opened_openBinding type mode world
        refine Invariant.Arrives.bind (.inl (everyBinding_opened keeps holds opened)) fun table begun run holds => ?_
        rw [run] at opened
        have members := @arrives_installMembers_everyBinding _ _ _ _ _ keeps ih access _ holds (mode_of_opened opened)
        have furnished : (Invariant.everyBinding good).Arrives
            (exec (host.furnish (host.bindWithin depth) type access mode table) begun) :=
          members.bind fun _ middle _ => finishes table middle
        refine furnished.bind fun _ last _ holds => ?_
        exact (Invariant.KeptBy.bind (.modifyContext fun _ => id) fun _ => .pure table) last holds

theorem keptBy_showHiddenWithin_everyBinding (keeps : host.KeepsBindings good) (depth : Nat) (type : TypeRef) :
    (Invariant.everyBinding good).KeptBy (host.showHiddenWithin depth type) := by
  have binds := keptBy_bindWithin_everyBinding keeps host.bindingDepth
  induction depth generalizing type with
  | zero => exact .throw _
  | succ depth ih =>
      intro world holds
      rw [showHiddenWithin, exec_bind_of_ok (exec_context world)]
      cases bound : world.context.binding? type with
      | none => exact .inl holds
      | some binding =>
          dsimp only
          split
          · exact .inl holds
          · refine (arrives_installMembers_everyBinding keeps binds holds ⟨binding, bound, rfl⟩).bind ?_
            refine fun _ middle _ filled => Invariant.KeptBy.bind (.modifyContext fun _ holds => ?_) (fun _ => ?_) _ filled
            · exact everyBinding_modifyBinding holds fun _ _ => keeps.showHidden
            · exact .forM _ fun nested _ => .bind .context fun _ => .bind (.discard (binds _ _ _)) fun _ => ih nested

theorem everyBinding_resolved (keeps : host.KeepsBindings good) {member : PendingMember}
    {run : Except ScriptError CallableHandle × World} (holds : (Invariant.everyBinding good).holds world)
    (resolved : host.Resolved member world run) : (Invariant.everyBinding good).holds run.2 := by
  have extended := everyBinding_of_bindings_eq (host.bindings_withExtensions world) holds
  cases resolved with
  | failed same =>
      rcases same with rfl | rfl
      · exact holds
      · exact extended
  | present => exact holds
  | made bound waits found registered callable =>
      exact everyBinding_modifyBinding (everyBinding_of_bindings_eq registered.bindings_eq extended)
        fun binding _ => keeps.make _ _

theorem respects_everyBinding (keeps : host.KeepsBindings good) : host.RespectsWrites (.everyBinding good) where
  toKeptOutside := keptOutside_of_steps fun step holds => by cases step <;> exact holds
  represent _ _ holds := holds
  countResolution _ holds := holds
  bindWith := keptBy_bindWithin_everyBinding keeps _
  showHidden type := keptBy_showHiddenWithin_everyBinding keeps _ type
  resolveMember member world holds := .inl (everyBinding_resolved keeps holds (host.resolved_resolveMember member world))
  writeKey _ _ _ holds := holds

/-- What operations keep holds of every binding, whatever is asked of the context. -/
theorem everyBinding_perform (keeps : host.KeepsBindings good) (operation : Operation)
    (holds : (Invariant.everyBinding good).holds world) :
    (Invariant.everyBinding good).holds (exec (host.perform operation) world).2 := by
  have kept := (respects_everyBinding keeps).perform operation (fun _ _ => keptBy_register id)
    fun type _ => keptBy_unbind type fun world holds other binding bound =>
      holds other binding (FinMap.get?_of_erase bound)
  exact (kept world holds).holds fun _ => id

end Host

/-- No slot waits for its member if the members are made as the type is bound. -/
def TypeBinding.Prompt (binding : TypeBinding) : Prop :=
  binding.mode = .eager → ∀ entry ∈ binding.slots.entries, entry.2.isBound = true

theorem Host.keepsBindings_prompt (host : Host) : host.KeepsBindings TypeBinding.Prompt where
  bare _ _ _ _ _ listed := absurd listed List.not_mem_nil
  fill prompt makes eager entry listed := by
    rcases FinMap.mem_entries_insertAll listed with added | older
    · rcases exists_item_of_forall₂ makes.slots added with ⟨member, -, -, isBound, -⟩
      exact isBound.trans (beq_iff_eq.mpr eager)
    · exact prompt eager entry older
  construct _ prompt := prompt
  showHidden prompt := prompt
  make place handle prompt eager entry listed := by
    rcases FinMap.mem_entries_insert listed with rfl | older
    · rfl
    · exact prompt eager entry older

end ScriptBridge
