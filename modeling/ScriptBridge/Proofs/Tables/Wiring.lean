import ScriptBridge.Proofs.Steps.Operations
import ScriptBridge.Proofs.Steps.Resolving
import ScriptBridge.Proofs.Tables.Wired

/-!
# Operations keep contexts wired

Binding types, showing hidden members, resolving placeholders and dropping bindings
keep a context wired, whether they succeed or fail; all that other operations change
leaves the dispatch tables alone. Hence every operation keeps a context wired.
-/

namespace ScriptBridge

namespace Host

open Bridge

/-- The context stays wired, whatever fails. -/
def wiring (host : Host) : Invariant where
  holds world := world.context.Wired host.system
  excuses := fun _ => False

variable {host : Host} {type : TypeRef} {world : World}

theorem wired_onlyRegistered {before after : World} (wired : host.wiring.holds before)
    (registered : before.OnlyRegistered after) : host.wiring.holds after := by
  have kept := registered.keeps
  rw [registered.rest]
  exact wired.change (.refl _) rfl rfl kept (fun _ _ => id) rfl

theorem installs_wiring (host : Host) (type : TypeRef) : host.Installs host.wiring type where
  collect absent wired :=
    { wired with
      extensions := fun map known => Option.some.inj known ▸ ExtensionMap.declaredIn_collect _ host.registry }
  represent _ _ wired := wired.change (.refl _) rfl rfl (.refl _) (fun _ _ => id) rfl
  writeEntry _ _ _ wired := by
    refine wired.change (.refl _) rfl rfl (.refl _) (fun other kind known => ?_) rfl
    rwa [TableHeap.kind?_set]
  register callable wired := wired.change (.refl _) rfl rfl (.push _ callable) (fun _ _ => id) rfl
  filled known wired filled := by
    cases filled with
    | failed registered => exact wired_onlyRegistered wired registered
    | filled registered bound makes =>
        refine (wired_onlyRegistered wired registered).modifyBinding fun binding bindingWired =>
          ⟨bindingWired.fill (fun map merged => ?_) makes, rfl⟩
        rcases known with none | same
        · rw [none] at merged
          cases merged
        · exact wired.extensions map (same.trans merged)

theorem takesNoReceiver_of_constructorCallable? {callable : Callable}
    (given : host.constructorCallable? type = some callable) : callable.takesNoReceiver = true := by
  rw [constructorCallable?] at given
  dsimp only at given
  split at given
  next => rcases Option.some.inj given with rfl; rfl
  next =>
    split at given
    next => cases given
    next =>
      split at given
      next => cases given
      next => rcases Option.some.inj given with rfl; rfl

theorem wired_constructed {run : Except BindError Unit × World} (wired : host.wiring.holds world)
    (constructed : host.Constructed type world run) : host.wiring.holds run.2 := by
  cases constructed with
  | absent => exact wired
  | failed registered => exact wired_onlyRegistered wired registered
  | @constructed callable handle after registered bound given made =>
      refine (wired_onlyRegistered wired registered).modifyBinding fun binding bindingWired =>
        ⟨{ bindingWired with constructor := fun handle same => ?_ }, rfl⟩
      rcases Option.some.inj same with rfl
      exact ⟨callable, made, takesNoReceiver_of_constructorCallable? given⟩

theorem wired_opened {mode : BindingMode} {run : Except BindError TableId × World}
    (wired : host.wiring.holds world) (opened : host.Opened type mode world run) : host.wiring.holds run.2 := by
  cases opened with
  | failed => exact wired
  | opened placed => exact Context.Wired.openBinding wired placed

theorem bindsItself_wiring (host : Host) (type : TypeRef) : host.BindsItself host.wiring type where
  toInstalls := installs_wiring host type
  constructed := wired_constructed
  opened := wired_opened
  counted wired := wired.change (.refl _) rfl rfl (.refl _) (fun _ _ => id) rfl

theorem keptBy_bindWithin_wiring (depth : Nat) (type : TypeRef) (access : MemberAccess)
    (mode : BindingMode) : host.wiring.KeptBy (host.bindWithin depth type access mode) :=
  keptBy_bindWithin (fun type _ _ => bindsItself_wiring host type) depth type access mode

theorem keptBy_showHidden_wiring (type : TypeRef) : host.wiring.KeptBy (host.showHidden type) := by
  refine keptBy_showHiddenWithin (fun type _ _ _ _ => installs_wiring host type) (keptBy_bindWithin_wiring _) ?_ _ type
  intro world type wired
  exact wired.modifyBinding fun binding bindingWired => ⟨{ bindingWired with }, rfl⟩

theorem wired_withExtensions (wired : host.wiring.holds world) : host.wiring.holds (host.withExtensions world) := by
  rcases host.withExtensions_eq world with same | ⟨absent, same⟩
  · rwa [same]
  · rw [same]
    exact (installs_wiring host .object).collect absent wired

theorem place_of_pending? {context : Context} {member : PendingMember} {listed : CatalogMember}
    (found : host.pending? context member = some listed) : listed.place = (member.table, member.name) := by
  have matched := List.find?_some found
  simp only [Bool.and_eq_true, decide_eq_true_eq, beq_iff_eq] at matched
  rcases matched with ⟨⟨sameKind, sameStatic⟩, sameName⟩
  rw [CatalogMember.place, PendingMember.table, sameKind, sameStatic, sameName]

/-- The member that a placeholder stands for is declared by its type, at the place of the placeholder. -/
theorem declaredBy_of_pending? {member : PendingMember} {listed : CatalogMember}
    (wired : host.wiring.holds world) (found : host.pending? world.context member = some listed) :
    listed.DeclaredBy host.system member.type ∧ listed.place = (member.table, member.name) := by
  have wiredToo := wired_withExtensions wired
  have known : ∀ map, host.extensionsIn world.context = some map → map.DeclaredIn host.system :=
    fun map given => wiredToo.extensions map
      (((host.extensions_withExtensions world).resolve_left (by rw [given]; exact Option.some_ne_none _)).trans given)
  exact ⟨Catalog.declaredBy_of_mem known (List.mem_of_find?_eq_some found), place_of_pending? found⟩

/-- The callable that a placeholder is resolved to serves the slot that it takes. -/
theorem wired_resolved {member : PendingMember} {run : Except ScriptError CallableHandle × World}
    (wired : host.wiring.holds world) (resolved : host.Resolved member world run) :
    host.wiring.holds run.2 := by
  cases resolved with
  | failed same =>
      rcases same with rfl | rfl
      · exact wired
      · exact wired_withExtensions wired
  | present => exact wired
  | @made binding listed handle after bound waits found registered callable =>
      rcases declaredBy_of_pending? wired found with ⟨declared, place⟩
      have slotWired : (MemberSlot.bound handle).Wired host.system after.context.callables member.type
          (member.table, member.name) := ⟨_, callable, host.system, listed, .refl _, declared, place, rfl⟩
      have settled := (wired_onlyRegistered (wired_withExtensions wired) registered).modifyBinding
        fun binding bindingWired => ⟨bindingWired.insertSlot slotWired, rfl⟩
      exact settled.change (.refl _) rfl rfl (.refl _) (fun _ _ => id) rfl

theorem wired_outside (step : host.OutsideStep world after) (wired : host.wiring.holds world) :
    host.wiring.holds after := by
  cases step with
  | createTable kind =>
      refine wired.change (.refl _) rfl rfl (.refl _) (fun id known present => ?_) rfl
      exact ((TableHeap.Grows.refl _).create kind).kind id known present
  | writeKey id key value =>
      refine wired.change (.refl _) rfl rfl (.refl _) (fun other kind known => ?_) rfl
      rwa [TableHeap.kind?_set]
  | _ => exact wired.change (.refl _) rfl rfl (.refl _) (fun _ _ => id) rfl

theorem respects_wiring (host : Host) : host.RespectsWrites host.wiring where
  toKeptOutside := keptOutside_of_steps wired_outside
  writeKey id key value := wired_outside (.writeKey _ id key value)
  represent := (installs_wiring host .object).represent
  countResolution _ wired := wired.change (.refl _) rfl rfl (.refl _) (fun _ _ => id) rfl
  bindWith := keptBy_bindWithin_wiring _
  showHidden := keptBy_showHidden_wiring
  resolveMember member world wired := .inl (wired_resolved wired (host.resolved_resolveMember member world))

/-- Every operation keeps a context wired, whether it succeeds or fails. -/
theorem wired_perform (operation : Operation) (wired : world.context.Wired host.system) :
    (exec (host.perform operation) world).2.context.Wired host.system := by
  have kept := (respects_wiring host).perform operation
    (fun callable _ => (installs_wiring host .object).registers callable)
    fun type _ => keptBy_unbind type fun world wired => Context.Wired.unbind wired type
  exact (kept world wired).holds fun _ => id

end Host

end ScriptBridge
