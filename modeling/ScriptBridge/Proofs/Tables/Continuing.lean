import ScriptBridge.Proofs.Steps.Operations
import ScriptBridge.Proofs.Steps.Resolving

/-!
# Bindings that go on

A type that is bound keeps its binding until the binding is dropped: nothing that is
in its tables is taken out of them, and its table and its constructor stay. Once the
hidden members are in the tables too, a slot changes only when its member is made.
-/

namespace ScriptBridge

/-- The slot is as it was, or the member that it waited for was made. -/
def MemberSlot.SettlesInto (earlier later : MemberSlot) : Prop :=
  later = earlier ∨ (earlier.isBound = false ∧ later.isBound = true)

/-- What is in the tables stays there, and what is not about single members is as it was. -/
structure TypeBinding.Continues (earlier later : TypeBinding) : Prop where
  slots : ∀ place, (earlier.slots.get? place).isSome → (later.slots.get? place).isSome
  operators : ∀ operator, (earlier.operators.get? operator).isSome → (later.operators.get? operator).isSome
  itemGetter : earlier.itemGetter.isSome → later.itemGetter.isSome
  itemSetter : earlier.itemSetter.isSome → later.itemSetter.isSome
  showsHidden : earlier.showsHidden = true → later.showsHidden = true
  settled : earlier.showsHidden = true → ∀ place slot, earlier.slots.get? place = some slot →
    ∃ next, later.slots.get? place = some next ∧ slot.SettlesInto next
  rest : later =
    { earlier with
      slots := later.slots
      operators := later.operators
      itemGetter := later.itemGetter
      itemSetter := later.itemSetter
      showsHidden := later.showsHidden }

theorem MemberSlot.SettlesInto.trans {first second third : MemberSlot} (one : first.SettlesInto second)
    (two : second.SettlesInto third) : first.SettlesInto third := by
  rcases one with rfl | ⟨waits, made⟩
  · exact two
  · rcases two with rfl | ⟨impossible, -⟩
    · exact .inr ⟨waits, made⟩
    · rw [made] at impossible
      cases impossible

namespace TypeBinding.Continues

variable {earlier middle later : TypeBinding}

theorem refl (binding : TypeBinding) : binding.Continues binding where
  slots _ := id
  operators _ := id
  itemGetter := id
  itemSetter := id
  showsHidden := id
  settled _ _ slot present := ⟨slot, present, .inl rfl⟩
  rest := rfl

theorem trans (first : earlier.Continues middle) (second : middle.Continues later) :
    earlier.Continues later where
  slots place present := second.slots place (first.slots place present)
  operators operator present := second.operators operator (first.operators operator present)
  itemGetter present := second.itemGetter (first.itemGetter present)
  itemSetter present := second.itemSetter (first.itemSetter present)
  showsHidden shown := second.showsHidden (first.showsHidden shown)
  settled shown place slot present := by
    rcases first.settled shown place slot present with ⟨next, found, one⟩
    rcases second.settled (first.showsHidden shown) place next found with ⟨last, there, two⟩
    exact ⟨last, there, one.trans two⟩
  rest := by
    have rest := second.rest
    rw [first.rest] at rest
    exact rest

/-- Members may be added as long as the hidden ones are not all there. -/
theorem fill (continues : earlier.Continues later) (hides : earlier.showsHidden = false) (filling : Filling) :
    earlier.Continues (later.fill filling) where
  slots place present := FinMap.isSome_get?_insertAll (continues.slots place present) _
  operators operator present := FinMap.isSome_get?_insertAll (continues.operators operator present) _
  itemGetter present := by
    rw [TypeBinding.fill, Option.isSome_or, continues.itemGetter present, Bool.or_true]
  itemSetter present := by
    rw [TypeBinding.fill, Option.isSome_or, continues.itemSetter present, Bool.or_true]
  showsHidden shown := continues.showsHidden shown
  settled shown := by
    rw [hides] at shown
    cases shown
  rest := by
    have rest := continues.rest
    rw [TypeBinding.fill, rest]

theorem shown (binding : TypeBinding) : binding.Continues { binding with showsHidden := true } where
  slots _ := id
  operators _ := id
  itemGetter := id
  itemSetter := id
  showsHidden _ := rfl
  settled _ _ slot present := ⟨slot, present, .inl rfl⟩
  rest := rfl

theorem make {binding : TypeBinding} {place : MemberTable × String}
    (waits : ∀ handle, binding.slots.get? place ≠ some (.bound handle)) (handle : CallableHandle) :
    binding.Continues { binding with slots := binding.slots.insert place (.bound handle) } where
  slots other present := FinMap.isSome_get?_insert present _
  operators _ := id
  itemGetter := id
  itemSetter := id
  showsHidden := id
  settled _ other slot present := by
    by_cases same : other = place
    · subst same
      refine ⟨.bound handle, FinMap.get?_insert_self _ _ _, .inr ⟨?_, rfl⟩⟩
      cases slot with
      | bound made => exact absurd present (waits made)
      | unbound waiting => rfl
    · exact ⟨slot, (FinMap.get?_insert_of_ne _ _ same).trans present, .inl rfl⟩
  rest := rfl

end TypeBinding.Continues

/-- A type is bound, and something holds of its binding. -/
def Invariant.boundAs (type : TypeRef) (good : TypeBinding → Prop) : Invariant where
  holds world := ∃ binding, world.context.binding? type = some binding ∧ good binding
  excuses := fun _ => False

namespace Host

open Bridge

variable {host : Host} {type other : TypeRef} {good : TypeBinding → Prop} {world after : World}

theorem boundAs_of_bindings_eq (same : after.context.bindings = world.context.bindings)
    (holds : (Invariant.boundAs type good).holds world) : (Invariant.boundAs type good).holds after := by
  rcases holds with ⟨binding, bound, isGood⟩
  refine ⟨binding, ?_, isGood⟩
  rwa [Context.binding?, same]

theorem boundAs_modifyBinding {change : TypeBinding → TypeBinding}
    (holds : (Invariant.boundAs type good).holds world)
    (changes : other = type → ∀ binding, world.context.binding? type = some binding → good binding →
      good (change binding)) :
    (Invariant.boundAs type good).holds
      { world with context := world.context.modifyBinding other change } := by
  rcases holds with ⟨binding, bound, isGood⟩
  by_cases same : other = type
  · refine ⟨change binding, ?_, changes same binding bound isGood⟩
    rw [Context.binding?_modifyBinding, if_pos same.symm, same, bound, Option.map_some]
  · refine ⟨binding, ?_, isGood⟩
    rw [Context.binding?_modifyBinding_of_ne _ _ (Ne.symm same), bound]

theorem installs_boundAs (fills : other = type → ∀ binding filling, good binding → good (binding.fill filling)) :
    host.Installs (.boundAs type good) other where
  collect _ holds := holds
  represent _ _ holds := holds
  writeEntry _ _ _ holds := holds
  register _ holds := holds
  filled _ holds filled := by
    cases filled with
    | failed registered => exact boundAs_of_bindings_eq registered.bindings_eq holds
    | filled registered bound makes =>
        refine boundAs_modifyBinding (boundAs_of_bindings_eq registered.bindings_eq holds) ?_
        exact fun same binding _ => fills same binding _

theorem boundAs_constructed {run : Except BindError Unit × World} (different : other ≠ type)
    (holds : (Invariant.boundAs type good).holds world) (constructed : host.Constructed other world run) :
    (Invariant.boundAs type good).holds run.2 := by
  cases constructed with
  | absent => exact holds
  | failed registered => exact boundAs_of_bindings_eq registered.bindings_eq holds
  | constructed registered bound given made =>
      refine boundAs_modifyBinding (boundAs_of_bindings_eq registered.bindings_eq holds) ?_
      exact fun same => absurd same different

theorem boundAs_opened {mode : BindingMode} {run : Except BindError TableId × World} (different : other ≠ type)
    (holds : (Invariant.boundAs type good).holds world) (opened : host.Opened other mode world run) :
    (Invariant.boundAs type good).holds run.2 := by
  cases opened with
  | failed => exact holds
  | opened placed =>
      rcases holds with ⟨binding, bound, isGood⟩
      exact ⟨binding, (FinMap.get?_insert_of_ne _ _ different.symm).trans bound, isGood⟩

theorem ne_of_boundAs (holds : (Invariant.boundAs type good).holds world)
    (unbound : world.context.binding? other = none) : other ≠ type := by
  rintro rfl
  rcases holds with ⟨binding, bound, -⟩
  rw [unbound] at bound
  cases bound

theorem bindsItself_boundAs (different : other ≠ type) : host.BindsItself (.boundAs type good) other where
  toInstalls := installs_boundAs fun same => absurd same different
  constructed := boundAs_constructed different
  opened := boundAs_opened different
  counted holds := holds

/-- Binding types leaves the binding of a type that is bound alone. -/
theorem keptBy_bindWithin_boundAs (depth : Nat) (other : TypeRef) (access : MemberAccess)
    (mode : BindingMode) : (Invariant.boundAs type good).KeptBy (host.bindWithin depth other access mode) :=
  keptBy_bindWithin (fun _ holds unbound => bindsItself_boundAs (ne_of_boundAs holds unbound)) depth other
    access mode

/-- Neither do constants that are handed out change the binding of a type that is bound. -/
theorem keptBy_installConstants_boundAs (depth : Nat) (table : TableId) (constants : List (String × HostValue)) :
    (Invariant.boundAs type good).KeptBy (installConstants (host.bindWithin depth) table constants) := by
  refine .forM _ fun constant _ => .bind (fun world holds => ?_) fun value => .modifyContext fun _ => id
  exact arrives_pushBy (binds_bindWithin depth) holds (fun _ => keptBy_bindWithin_boundAs depth _) fun _ _ _ _ => id

/-- Showing hidden members changes the binding of a type only if they are not shown yet. -/
theorem keptBy_showHiddenWithin_boundAs
    (fills : ∀ found, good found → found.showsHidden = false →
      ∀ binding filling, good binding → good (binding.fill filling))
    (shows : ∀ binding, good binding → good { binding with showsHidden := true }) (depth : Nat)
    (other : TypeRef) : (Invariant.boundAs type good).KeptBy (host.showHiddenWithin depth other) := by
  refine keptBy_showHiddenWithin ?_ (keptBy_bindWithin_boundAs _) ?_ depth other
  · rintro world other found ⟨binding, bound, isGood⟩ present hides
    refine installs_boundAs fun same => ?_
    subst same
    rcases Option.some.inj (present.symm.trans bound) with rfl
    exact fills found isGood hides
  · exact fun other holds => boundAs_modifyBinding holds fun _ binding _ => shows binding

/-- What a binding is when members have just been put into its tables. -/
theorem binding?_of_filled {binding : TypeBinding} {access : MemberAccess} {mode : BindingMode}
    {catalog : Catalog} (bound : world.context.binding? type = some binding)
    (filled : host.Filled type access mode catalog world (.ok (), after)) :
    ∃ filling, after.context.binding? type = some (binding.fill filling) ∧
      host.Makes type access mode catalog filling after.context.callables := by
  cases filled with
  | @filled filling middle registered _ makes =>
      refine ⟨filling, ?_, by rwa [Context.callables_modifyBinding]⟩
      have unchanged : middle.context.binding? type = some binding := by
        rw [Context.binding?, registered.bindings_eq]
        exact bound
      rw [Context.binding?_modifyBinding, if_pos rfl, unchanged, Option.map_some]

/-- What a binding is when the members of its type have just been installed. -/
theorem boundAs_installMembers {depth : Nat} {access : MemberAccess} {mode : BindingMode} {binding : TypeBinding}
    (holds : (Invariant.boundAs type (· = binding)).holds world)
    (run : exec (host.installMembers (host.bindWithin depth) type access mode) world = (.ok (), after)) :
    ∃ filling, (Invariant.boundAs type (· = binding.fill filling)).holds after ∧
      host.Makes type access mode (.ofType host.system type access (host.extensionsIn world.context)) filling
        after.context.callables := by
  rcases filled_of_installMembers run with ⟨table, middle, -, captured, filled⟩
  have started := boundAs_of_bindings_eq (host.bindings_withExtensions world) holds
  rcases (keptBy_installConstants_boundAs _ _ _).holds_of_ok started captured with ⟨same, bound, rfl⟩
  rcases binding?_of_filled bound filled with ⟨filling, boundFilled, makes⟩
  exact ⟨filling, ⟨_, boundFilled, rfl⟩, makes⟩

/-- Binds the hidden nested types of a type and shows their hidden members. -/
def showNested (host : Host) (depth : Nat) (type : TypeRef) (mode : BindingMode) : Bridge BindError Unit :=
  (host.nestedToBind type .hidden).forM fun nested => do
    discard (host.bindWith nested (← Bridge.context).config.access mode)
    host.showHiddenWithin depth nested

/-- Showing hidden members that are not shown is to install them, to take note of it, and to go on to nested types. -/
theorem exec_showHiddenWithin_eq_ok {depth : Nat} {binding : TypeBinding}
    (bound : world.context.binding? type = some binding) (hides : binding.showsHidden = false)
    (run : exec (host.showHiddenWithin (depth + 1) type) world = (.ok (), after)) :
    ∃ installed,
      exec (host.installMembers host.bindWith type .hiddenOnly binding.mode) world = (.ok (), installed) ∧
      exec (host.showNested depth type binding.mode)
        { installed with context := installed.context.modifyBinding type fun binding =>
          { binding with showsHidden := true } } = (.ok (), after) := by
  rw [showHiddenWithin, exec_bind_of_ok (exec_context world), bound] at run
  dsimp only at run
  rw [hides, if_neg Bool.false_ne_true] at run
  rcases exec_bind_eq_ok run with ⟨_, installed, installing, run⟩
  rcases exec_bind_eq_ok run with ⟨_, shown, showing, nesting⟩
  rcases (Prod.mk.inj showing).2 with rfl
  exact ⟨installed, installing, nesting⟩

theorem keptBy_showNested {invariant : Invariant}
    (binds : ∀ type access mode, invariant.KeptBy (host.bindWith type access mode))
    (shows : ∀ depth type, invariant.KeptBy (host.showHiddenWithin depth type)) (depth : Nat) (type : TypeRef)
    (mode : BindingMode) : invariant.KeptBy (host.showNested depth type mode) :=
  .forM _ fun _ _ => .bind .context fun _ => .bind (.discard (binds _ _ _)) fun _ => shows _ _

theorem binds_showNested (depth : Nat) (type : TypeRef) (mode : BindingMode) :
    host.Binds (host.showNested depth type mode) :=
  .forM _ fun _ => .bind .context fun _ => .bind (.discard (binds_bindWith _ _ _)) fun _ =>
    binds_showHiddenWithin _ _

/-- What the binding of a type is when its hidden members have been shown. -/
theorem binding?_of_showHiddenWithin {depth : Nat} {binding : TypeBinding}
    (bound : world.context.binding? type = some binding) (hides : binding.showsHidden = false)
    (run : exec (host.showHiddenWithin (depth + 1) type) world = (.ok (), after)) :
    ∃ filling, after.context.binding? type = some { binding.fill filling with showsHidden := true } ∧
      host.Makes type .hiddenOnly binding.mode
        (.ofType host.system type .hiddenOnly (host.extensionsIn world.context)) filling
        after.context.callables := by
  rcases exec_showHiddenWithin_eq_ok bound hides run with ⟨installed, installing, nesting⟩
  rcases boundAs_installMembers ⟨binding, bound, rfl⟩ installing with ⟨filling, ⟨_, boundFilled, rfl⟩, makes⟩
  -- What is bound and shown next does not touch the binding any more.
  let last : TypeBinding := { binding.fill filling with showsHidden := true }
  have keeps : (Invariant.boundAs type (· = last)).KeptBy (host.showNested depth type binding.mode) := by
    refine keptBy_showNested (keptBy_bindWithin_boundAs _) (keptBy_showHiddenWithin_boundAs ?_ ?_) _ _ _
    · rintro found rfl impossible
      cases impossible
    · rintro found rfl
      rfl
  have reached : (Invariant.boundAs type (· = last)).holds
      { installed with context := installed.context.modifyBinding type fun binding =>
        { binding with showsHidden := true } } := by
    refine ⟨last, ?_, rfl⟩
    rw [Context.binding?_modifyBinding, if_pos rfl, boundFilled, Option.map_some]
  rcases keeps.holds_of_ok reached nesting with ⟨_, boundAfter, rfl⟩
  have kept := keepsCallables_of_steps ((binds_showNested depth type binding.mode).steps.chain nesting)
  rw [Context.callables_modifyBinding] at kept
  exact ⟨filling, boundAfter, makes.mono kept⟩

theorem boundAs_resolved {member : PendingMember} {run : Except ScriptError CallableHandle × World}
    (makes : ∀ binding place handle, (∀ made, binding.slots.get? place ≠ some (.bound made)) → good binding →
      good { binding with slots := binding.slots.insert place (.bound handle) })
    (holds : (Invariant.boundAs type good).holds world) (resolved : host.Resolved member world run) :
    (Invariant.boundAs type good).holds run.2 := by
  have extended := host.bindings_withExtensions world
  cases resolved with
  | failed same =>
      rcases same with rfl | rfl
      · exact holds
      · exact boundAs_of_bindings_eq extended holds
  | present => exact holds
  | made bound waits found registered callable =>
      have reached := boundAs_of_bindings_eq (registered.bindings_eq.trans extended) holds
      refine boundAs_modifyBinding reached fun same binding present isGood => makes binding _ _ ?_ isGood
      rw [Context.binding?, registered.bindings_eq, extended] at present
      rcases Option.some.inj ((same ▸ bound).symm.trans present) with rfl
      exact waits

/-- When installing members fails, nothing has been put into the tables yet. -/
theorem boundAs_of_failed_installMembers {depth : Nat} {binding : TypeBinding} {access : MemberAccess} {mode : BindingMode}
    {error : BindError}
    (holds : (Invariant.boundAs type (· = binding)).holds world)
    (run : exec (host.installMembers (host.bindWithin depth) type access mode) world = (.error error, after)) :
    (Invariant.boundAs type (· = binding)).holds after := by
  rw [installMembers_eq, exec_bind_of_ok (exec_context world)] at run
  split at run
  next =>
    obtain rfl := (Prod.mk.inj run).2
    exact holds
  next table _ =>
    rw [exec_bind_of_ok (host.exec_extensionMap world), exec_bind_of_ok (exec_store _), exec_bind] at run
    have started := boundAs_of_bindings_eq (host.bindings_withExtensions world) holds
    have constants := @keptBy_installConstants_boundAs host _ _ depth table
      ((Catalog.ofType host.system type access (host.extensionsIn world.context)).constants.map fun constant =>
        (constant.1, constantValue (host.withExtensions world).store constant.2)) _ started
    split at run
    next middle handed =>
      rw [handed] at constants
      rcases constants with kept | ⟨_, _, impossible, -⟩
      · have filled := host.filled_fillTables type access mode
          (.ofType host.system type access (host.extensionsIn world.context)) middle
        rw [run] at filled
        cases filled with
        | failed registered => exact boundAs_of_bindings_eq registered.bindings_eq kept
      · cases impossible
    next error last failed =>
      rw [failed] at constants
      obtain rfl := (Prod.mk.inj run).2
      exact constants.holds fun _ => id

/-- What holds of a binding that hides members also holds once what is made for them was put into it. -/
def HoldsOnceShown (host : Host) (type : TypeRef) (good : TypeBinding → Prop) : Prop :=
  ∀ binding filling extensions callables, good binding → binding.showsHidden = false →
    host.Makes type .hiddenOnly binding.mode (.ofType host.system type .hiddenOnly extensions) filling callables →
    good { binding.fill filling with showsHidden := true }

/-- Showing hidden members fills the tables of a type that hides them; other bindings are left alone. -/
theorem keptBy_showHiddenWithin_filled (shows : host.HoldsOnceShown type good) (depth : Nat) (other : TypeRef) :
    (Invariant.boundAs type good).KeptBy (host.showHiddenWithin depth other) := by
  induction depth generalizing other with
  | zero => exact .throw _
  | succ depth ih =>
      intro world holds
      have nests (mode : BindingMode) : (Invariant.boundAs type good).KeptBy (host.showNested depth other mode) :=
        .forM _ fun nested _ => .bind .context fun _ =>
          .bind (.discard (keptBy_bindWithin_boundAs _ _ _ _)) fun _ => ih nested
      rw [showHiddenWithin, exec_bind_of_ok (exec_context world)]
      cases bound : world.context.binding? other with
      | none => exact .inl holds
      | some binding =>
          dsimp only
          cases hides : binding.showsHidden with
          | true => exact .inl holds
          | false =>
              rw [if_neg Bool.false_ne_true]
              by_cases same : other = type
              · subst same
                rcases holds with ⟨found, present, isGood⟩
                obtain rfl := Option.some.inj (bound.symm.trans present)
                rw [exec_bind]
                cases run : exec (host.installMembers host.bindWith other .hiddenOnly binding.mode) world with
                | mk result installed =>
                    cases result with
                    | error error =>
                        rcases boundAs_of_failed_installMembers ⟨binding, bound, rfl⟩ run with ⟨_, stays, rfl⟩
                        exact .inl ⟨_, stays, isGood⟩
                    | ok _ =>
                        rcases boundAs_installMembers ⟨binding, bound, rfl⟩ run with ⟨filling, ⟨_, filled, rfl⟩, makes⟩
                        refine nests binding.mode _ ⟨{ binding.fill filling with showsHidden := true }, ?_,
                          shows binding filling _ _ isGood hides makes⟩
                        exact (Context.binding?_modifyBinding _ _).trans (by rw [if_pos rfl, filled]; rfl)
              · have fills : host.Installs (.boundAs type good) other :=
                  installs_boundAs fun impossible => absurd impossible same
                have others : host.BindsOthers (.boundAs type good) host.bindWith other :=
                  .of_all binds_bindWith (keptBy_bindWithin_boundAs _) other
                refine (fills.installMembers others _ _ world holds).bind fun _ installed _ kept => ?_
                exact nests binding.mode _ (boundAs_modifyBinding kept fun impossible => absurd impossible same)

/-- A binding is changed where a member is made or hidden members are shown, and only dropping it ends it. -/
theorem boundAs_perform (shows : host.HoldsOnceShown type good)
    (makes : ∀ binding place handle, (∀ made, binding.slots.get? place ≠ some (.bound made)) → good binding →
      good { binding with slots := binding.slots.insert place (.bound handle) })
    (operation : Operation) (kept : operation ≠ .unbind type) (holds : (Invariant.boundAs type good).holds world) :
    (Invariant.boundAs type good).holds (exec (host.perform operation) world).2 := by
  have respects : host.RespectsWrites (.boundAs type good) := {
    toKeptOutside := keptOutside_of_steps fun step holds => by cases step <;> exact holds
    represent := fun _ _ holds => holds
    countResolution := fun _ holds => holds
    bindWith := keptBy_bindWithin_boundAs _
    showHidden := fun other => keptBy_showHiddenWithin_filled shows _ other
    resolveMember := fun member world holds =>
      .inl (boundAs_resolved makes holds (host.resolved_resolveMember member world))
    writeKey := fun _ _ _ holds => holds }
  have keeps := respects.perform operation (fun _ _ => keptBy_register id)
    fun other same => keptBy_unbind other fun world holds => by
      rcases holds with ⟨later, present, isGood⟩
      have different : type ≠ other := fun equal => kept (equal ▸ same)
      refine ⟨later, ?_, isGood⟩
      rw [Context.binding?, FinMap.get?_erase, if_neg different]
      exact present
  exact (keeps world holds).holds fun _ => id

/-- No operation replaces the binding of a bound type; only dropping it ends it. -/
theorem continues_perform {earlier : TypeBinding} (host : Host) (operation : Operation) (world : World)
    (kept : operation ≠ .unbind type) (bound : (Invariant.boundAs type earlier.Continues).holds world) :
    (Invariant.boundAs type earlier.Continues).holds (exec (host.perform operation) world).2 := by
  refine boundAs_perform (fun binding filling _ _ continues hides _ => ?_) ?_ operation kept bound
  · have hidden : earlier.showsHidden = false := by
      by_contra shown
      rw [continues.showsHidden (by simpa using shown)] at hides
      cases hides
    exact (continues.fill hidden filling).trans (.shown _)
  · exact fun binding place handle waits continues => continues.trans (.make waits handle)

end Host

end ScriptBridge
