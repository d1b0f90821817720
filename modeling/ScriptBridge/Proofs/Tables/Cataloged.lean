import ScriptBridge.Proofs.Tables.Wiring

/-!
# Slots and the catalogs that they are from

Every slot of a bound type is that of a member which some walk over the type listed,
when no more types were declared than now. What a slot leads to can therefore be told
from the declarations of the type, also before the member is made. The extension methods
that the walk knew are those that the context has collected, if it knew any.
-/

namespace ScriptBridge

/-- A walk over the type listed a member at the place, and the slot has the callable or placeholder of that member. -/
inductive MemberSlot.Cataloged (system : TypeSystem) (callables : Array Callable) (type : TypeRef)
    (place : MemberTable × String) : MemberSlot → Prop
  | made {earlier : TypeSystem} {access : MemberAccess} {extensions : Option ExtensionMap} {member : CatalogMember}
      {handle : CallableHandle} (precedes : earlier.Precedes system)
      (listed : member ∈ (Catalog.ofType earlier type access extensions).members) (there : member.place = place)
      (registered : Registered callables handle (.ofMember earlier type member)) :
      Cataloged system callables type place (.bound handle)
  | waiting {earlier : TypeSystem} {access : MemberAccess} {extensions : Option ExtensionMap} {member : CatalogMember}
      {handle : CallableHandle} (precedes : earlier.Precedes system)
      (listed : member ∈ (Catalog.ofType earlier type access extensions).members) (there : member.place = place)
      (registered :
        Registered callables handle (.placeholder ⟨type, member.kind, member.name, member.isStatic, access⟩)) :
      Cataloged system callables type place (.unbound handle)

def TypeBinding.Cataloged (system : TypeSystem) (callables : Array Callable) (type : TypeRef)
    (binding : TypeBinding) : Prop :=
  ∀ entry ∈ binding.slots.entries, entry.2.Cataloged system callables type entry.1

def Context.Cataloged (system : TypeSystem) (context : Context) : Prop :=
  ∀ type binding, context.binding? type = some binding → binding.Cataloged system context.callables type

variable {system grown : TypeSystem} {callables more : Array Callable} {type : TypeRef}

theorem MemberSlot.Cataloged.mono {place : MemberTable × String} {slot : MemberSlot}
    (listed : slot.Cataloged system callables type place) (precedes : system.Precedes grown)
    (kept : KeepsCallables callables more) : slot.Cataloged grown more type place := by
  cases listed with
  | made earlier listed there registered =>
      exact .made (earlier.trans precedes) listed there (kept _ _ registered)
  | waiting earlier listed there registered =>
      exact .waiting (earlier.trans precedes) listed there (kept _ _ registered)

/-- The slot that is installed for a member of the catalog. -/
theorem MemberSlot.cataloged_of_makesSlot {host : Host} {access : MemberAccess} {mode : BindingMode}
    {extensions : Option ExtensionMap} {member : CatalogMember} {made : (MemberTable × String) × MemberSlot}
    (listed : member ∈ (Catalog.ofType host.system type access extensions).members)
    (makes : host.MakesSlot type access mode member made callables) :
    made.2.Cataloged host.system callables type made.1 := by
  rcases made with ⟨place, slot⟩
  rcases makes with ⟨rfl, isBound, registered⟩
  cases slot with
  | bound handle =>
      cases mode with
      | eager => exact .made (.refl _) listed rfl registered
      | «lazy» => cases isBound
  | unbound handle =>
      cases mode with
      | eager => cases isBound
      | «lazy» => exact .waiting (.refl _) listed rfl registered

theorem TypeBinding.Cataloged.fill {host : Host} {binding : TypeBinding}
    (holds : binding.Cataloged host.system callables type) {access : MemberAccess} {mode : BindingMode}
    {extensions : Option ExtensionMap} {filling : Filling}
    (makes : host.Makes type access mode (.ofType host.system type access extensions) filling callables) :
    (binding.fill filling).Cataloged host.system callables type := by
  intro entry present
  rcases FinMap.mem_entries_insertAll present with added | older
  · rcases exists_item_of_forall₂ makes.slots added with ⟨member, listed, made⟩
    exact MemberSlot.cataloged_of_makesSlot listed made
  · exact holds entry older

namespace Context.Cataloged

variable {before after : Context}

/-- A change that leaves the bindings alone and takes no callable away. -/
theorem change (holds : before.Cataloged system) (precedes : system.Precedes grown)
    (bindings : after.bindings = before.bindings) (kept : KeepsCallables before.callables after.callables) :
    after.Cataloged grown := by
  intro type binding bound entry present
  rw [binding?, bindings] at bound
  exact (holds type binding bound entry present).mono precedes kept

theorem modifyBinding (holds : before.Cataloged system) {change : TypeBinding → TypeBinding}
    (keeps : ∀ binding, binding.Cataloged system before.callables type →
      (change binding).Cataloged system before.callables type) : (before.modifyBinding type change).Cataloged system := by
  intro other binding bound
  rw [callables_modifyBinding]
  rw [binding?_modifyBinding] at bound
  split at bound
  next same =>
    rcases Option.map_eq_some_iff.mp bound with ⟨found, present, rfl⟩
    exact same ▸ keeps found (holds type found present)
  next => exact holds other binding bound

theorem fresh (system : TypeSystem) (config : Config) (tag : CacheTag) : (Context.fresh config tag).Cataloged system :=
  fun _ _ impossible => by cases impossible

end Context.Cataloged

namespace Host

open Bridge

/-- All slots are from catalogs, whatever fails. -/
def cataloging (host : Host) : Invariant where
  holds world := world.context.Cataloged host.system
  excuses := fun _ => False

variable {host : Host} {type : TypeRef} {world after : World}

theorem cataloged_onlyRegistered (holds : world.context.Cataloged host.system) (registered : world.OnlyRegistered after) :
    after.context.Cataloged host.system :=
  holds.change (.refl _) registered.bindings_eq registered.keeps

theorem installs_cataloging (host : Host) (type : TypeRef) : host.Installs host.cataloging type where
  collect _ holds := holds
  represent _ _ holds := holds
  writeEntry _ _ _ holds := holds
  register callable holds := holds.change (.refl _) rfl (.push _ callable)
  filled _ holds filled := by
    cases filled with
    | failed registered => exact cataloged_onlyRegistered holds registered
    | filled registered bound makes =>
        exact (cataloged_onlyRegistered holds registered).modifyBinding fun binding listed => listed.fill makes

theorem bindsItself_cataloging (host : Host) (type : TypeRef) : host.BindsItself host.cataloging type where
  toInstalls := installs_cataloging host type
  constructed holds constructed := by
    cases constructed with
    | absent => exact holds
    | failed registered => exact cataloged_onlyRegistered holds registered
    | constructed registered => exact (cataloged_onlyRegistered holds registered).modifyBinding fun _ listed => listed
  opened holds opened := by
    cases opened with
    | failed => exact holds
    | opened =>
        intro other binding bound
        rcases FinMap.eq_or_get?_of_insert bound with ⟨rfl, rfl⟩ | earlier
        · exact fun _ present => absurd present List.not_mem_nil
        · exact holds other binding earlier
  counted holds := holds

theorem keptBy_bindWithin_cataloging (depth : Nat) (type : TypeRef) (access : MemberAccess) (mode : BindingMode) :
    host.cataloging.KeptBy (host.bindWithin depth type access mode) :=
  keptBy_bindWithin (fun type _ _ => bindsItself_cataloging host type) depth type access mode

theorem keptBy_showHidden_cataloging (type : TypeRef) : host.cataloging.KeptBy (host.showHidden type) := by
  refine keptBy_showHiddenWithin (fun type _ _ _ _ => installs_cataloging host type) (keptBy_bindWithin_cataloging _) ?_ _
    type
  exact fun type holds => holds.modifyBinding fun _ listed => listed

/-- The slot that a placeholder is resolved for is that of the member that it stood for. -/
theorem cataloged_resolved {member : PendingMember} {run : Except ScriptError CallableHandle × World}
    (holds : world.context.Cataloged host.system) (resolved : host.Resolved member world run) :
    run.2.context.Cataloged host.system := by
  have extended : (host.withExtensions world).context.Cataloged host.system :=
    holds.change (.refl _) (host.bindings_withExtensions world)
      (keepsCallables_of_bindSteps ((binds_extensionMap (ε := ScriptError)).chain (host.exec_extensionMap world)))
  cases resolved with
  | failed same =>
      rcases same with rfl | rfl
      · exact holds
      · exact extended
  | present => exact holds
  | @made binding listed handle after bound waits found registered callable =>
      have slotListed : (MemberSlot.bound handle).Cataloged host.system after.context.callables member.type
          (member.table, member.name) :=
        .made (.refl _) (List.mem_of_find?_eq_some found) (place_of_pending? found) callable
      have settled : (after.context.modifyBinding member.type fun binding =>
          { binding with slots := binding.slots.insert (member.table, member.name) (.bound handle) }).Cataloged
            host.system := by
        refine (cataloged_onlyRegistered extended registered).modifyBinding fun binding all entry present => ?_
        rcases FinMap.mem_entries_insert present with rfl | older
        · exact slotListed
        · exact all entry older
      exact settled.change (.refl _) rfl (.refl _)

theorem respects_cataloging (host : Host) : host.RespectsWrites host.cataloging where
  toKeptOutside := keptOutside_of_steps fun step holds => by cases step <;> exact holds
  writeKey _ _ _ holds := holds
  represent _ _ holds := holds
  countResolution _ holds := holds
  bindWith := keptBy_bindWithin_cataloging _
  showHidden := keptBy_showHidden_cataloging
  resolveMember member world holds := .inl (cataloged_resolved holds (host.resolved_resolveMember member world))

/-- After every operation all slots are from catalogs still. -/
theorem cataloged_perform (operation : Operation) (holds : world.context.Cataloged host.system) :
    (exec (host.perform operation) world).2.context.Cataloged host.system := by
  have kept := (respects_cataloging host).perform operation
    (fun callable _ => (installs_cataloging host .object).registers callable)
    fun type _ => keptBy_unbind type fun world holds other binding bound =>
      holds other binding (FinMap.get?_of_erase bound)
  exact (kept world holds).holds fun _ => id

end Host

/-! ## The extension methods that walks knew -/

/-- The extension methods are those that were collected when no more types were declared than now. -/
def ExtensionMap.CollectedIn (system : TypeSystem) (extensions : ExtensionMap) : Prop :=
  ∃ (earlier : TypeSystem) (registry : Registry), earlier.Precedes system ∧ extensions = .collect earlier registry

theorem ExtensionMap.CollectedIn.declaredIn {system : TypeSystem} {extensions : ExtensionMap}
    (collected : extensions.CollectedIn system) : extensions.DeclaredIn system := by
  rcases collected with ⟨earlier, registry, precedes, rfl⟩
  exact (declaredIn_collect earlier registry).later precedes

/-- A walk over the type listed the member at the place. It knew the given extension methods, or none. -/
structure CatalogMember.Found (system : TypeSystem) (extensions : Option ExtensionMap) (type : TypeRef)
    (place : MemberTable × String) (earlier : TypeSystem) (access : MemberAccess) (known : Option ExtensionMap)
    (member : CatalogMember) : Prop where
  precedes : earlier.Precedes system
  knew : known = none ∨ extensions = known
  declared : ∀ map, known = some map → map.DeclaredIn earlier
  listed : member ∈ (Catalog.ofType earlier type access known).members
  there : member.place = place

/-- The slot has the callable or placeholder of a member that a walk listed, which knew the extension methods or none. -/
inductive MemberSlot.Found (system : TypeSystem) (callables : Array Callable) (extensions : Option ExtensionMap)
    (type : TypeRef) (place : MemberTable × String) : MemberSlot → Prop
  | made {earlier : TypeSystem} {access : MemberAccess} {known : Option ExtensionMap} {member : CatalogMember}
      {handle : CallableHandle} (found : member.Found system extensions type place earlier access known)
      (registered : Registered callables handle (.ofMember earlier type member)) :
      Found system callables extensions type place (.bound handle)
  | waiting {earlier : TypeSystem} {access : MemberAccess} {known : Option ExtensionMap} {member : CatalogMember}
      {handle : CallableHandle} (found : member.Found system extensions type place earlier access known)
      (registered :
        Registered callables handle (.placeholder ⟨type, member.kind, member.name, member.isStatic, access⟩)) :
      Found system callables extensions type place (.unbound handle)

/-- All slots are of walks that knew the extension methods of the context or none, and these were collected. -/
structure Context.Collects (system : TypeSystem) (context : Context) : Prop where
  collected : ∀ map, context.extensions = some map → map.CollectedIn system
  slots : ∀ type binding, context.binding? type = some binding → ∀ entry ∈ binding.slots.entries,
    entry.2.Found system context.callables context.extensions type entry.1

theorem MemberSlot.Found.mono {extensions later : Option ExtensionMap} {place : MemberTable × String}
    {slot : MemberSlot} (found : slot.Found system callables extensions type place) (precedes : system.Precedes grown)
    (kept : KeepsCallables callables more) (known : extensions = none ∨ later = extensions) :
    slot.Found grown more later type place := by
  have stays {earlier : TypeSystem} {access : MemberAccess} {knew : Option ExtensionMap} {member : CatalogMember}
      (found : member.Found system extensions type place earlier access knew) :
      member.Found grown later type place earlier access knew := by
    refine { found with precedes := found.precedes.trans precedes, knew := ?_ }
    rcases found.knew with unknown | rfl
    · exact .inl unknown
    · exact known
  cases found with
  | made found registered => exact .made (stays found) (kept _ _ registered)
  | waiting found registered => exact .waiting (stays found) (kept _ _ registered)

/-- The slot that is installed for a member of the catalog. -/
theorem MemberSlot.found_of_makesSlot {host : Host} {access : MemberAccess} {mode : BindingMode}
    {extensions known : Option ExtensionMap} {member : CatalogMember} {made : (MemberTable × String) × MemberSlot}
    (knew : known = none ∨ extensions = known) (declared : ∀ map, known = some map → map.DeclaredIn host.system)
    (listed : member ∈ (Catalog.ofType host.system type access known).members)
    (makes : host.MakesSlot type access mode member made callables) :
    made.2.Found host.system callables extensions type made.1 := by
  rcases made with ⟨place, slot⟩
  rcases makes with ⟨rfl, isBound, registered⟩
  have found : member.Found host.system extensions type member.place host.system access known :=
    ⟨.refl _, knew, declared, listed, rfl⟩
  cases slot with
  | bound handle =>
      cases mode with
      | eager => exact .made found registered
      | «lazy» => cases isBound
  | unbound handle =>
      cases mode with
      | eager => cases isBound
      | «lazy» => exact .waiting found registered

namespace Context.Collects

variable {before after : Context}

theorem fresh (system : TypeSystem) (config : Config) (tag : CacheTag) : (Context.fresh config tag).Collects system where
  collected _ impossible := by cases impossible
  slots _ _ impossible := by cases impossible

/-- A change that leaves the bindings and the extension methods alone and takes no callable away. -/
theorem change (holds : before.Collects system) (precedes : system.Precedes grown)
    (bindings : after.bindings = before.bindings) (extensions : after.extensions = before.extensions)
    (kept : KeepsCallables before.callables after.callables) : after.Collects grown where
  collected map same := by
    rcases holds.collected map (extensions ▸ same) with ⟨earlier, registry, before, collected⟩
    exact ⟨earlier, registry, before.trans precedes, collected⟩
  slots type binding bound entry present := by
    rw [binding?, bindings] at bound
    exact (holds.slots type binding bound entry present).mono precedes kept (.inr extensions)

theorem modifyBinding (holds : before.Collects system) {change : TypeBinding → TypeBinding}
    (keeps : ∀ binding, ∀ entry ∈ (change binding).slots.entries, entry ∈ binding.slots.entries ∨
      entry.2.Found system before.callables before.extensions type entry.1) :
    (before.modifyBinding type change).Collects system := by
  have sameExtensions : (before.modifyBinding type change).extensions = before.extensions := by rw [modifyBinding_eq]
  refine ⟨fun map same => holds.collected map (sameExtensions ▸ same), fun other binding bound entry present => ?_⟩
  rw [callables_modifyBinding, sameExtensions]
  rw [binding?_modifyBinding] at bound
  split at bound
  next same =>
    rcases Option.map_eq_some_iff.mp bound with ⟨found, was, rfl⟩
    rcases keeps found entry present with older | added
    · exact same ▸ holds.slots type found was entry older
    · exact same ▸ added
  next => exact holds.slots other binding bound entry present

end Context.Collects

namespace Host

open Bridge

/-- All slots are of walks that knew the extension methods of the context, whatever fails. -/
def collecting (host : Host) : Invariant where
  holds world := world.context.Collects host.system
  excuses := fun _ => False

variable {host : Host} {type : TypeRef} {world after : World}

theorem collects_onlyRegistered (holds : world.context.Collects host.system) (registered : world.OnlyRegistered after) :
    after.context.Collects host.system :=
  holds.change (.refl _) registered.bindings_eq (by rw [registered.rest]) registered.keeps

theorem collects_collect (holds : world.context.Collects host.system) (absent : world.context.extensions = none) :
    ({ world.context with extensions := some (.collect host.system host.registry) } : Context).Collects host.system where
  collected _ same := ⟨host.system, host.registry, .refl _, (Option.some.inj same).symm⟩
  slots type binding bound entry present :=
    (holds.slots type binding bound entry present).mono (.refl _) (.refl _) (.inl absent)

theorem collects_withExtensions (holds : world.context.Collects host.system) :
    (host.withExtensions world).context.Collects host.system := by
  rcases host.withExtensions_eq world with same | ⟨absent, same⟩
  · rwa [same]
  · rw [same]
    exact collects_collect holds absent

theorem installs_collecting (host : Host) (type : TypeRef) : host.Installs host.collecting type where
  collect absent holds := collects_collect holds absent
  represent _ _ holds := ⟨holds.collected, holds.slots⟩
  writeEntry _ _ _ holds := ⟨holds.collected, holds.slots⟩
  register callable holds := holds.change (.refl _) rfl rfl (.push _ callable)
  filled := by
    intro access mode known world run knew holds filled
    cases filled with
    | failed registered => exact collects_onlyRegistered holds registered
    | @filled filling after registered bound makes =>
        refine (collects_onlyRegistered holds registered).modifyBinding fun binding entry present => ?_
        rcases FinMap.mem_entries_insertAll present with added | older
        · rcases exists_item_of_forall₂ makes.slots added with ⟨member, listed, made⟩
          have declared (map : ExtensionMap) (same : known = some map) : map.DeclaredIn host.system :=
            (holds.collected map ((knew.resolve_left (by simp [same])).trans same)).declaredIn
          have knewAfter : known = none ∨ after.context.extensions = known :=
            knew.imp_right fun same => by rw [registered.rest]; exact same
          exact .inr (MemberSlot.found_of_makesSlot knewAfter declared listed made)
        · exact .inl older

theorem bindsItself_collecting (host : Host) (type : TypeRef) : host.BindsItself host.collecting type where
  toInstalls := installs_collecting host type
  constructed holds constructed := by
    cases constructed with
    | absent => exact holds
    | failed registered => exact collects_onlyRegistered holds registered
    | constructed registered =>
        exact (collects_onlyRegistered holds registered).modifyBinding fun _ _ present => .inl present
  opened holds opened := by
    cases opened with
    | failed => exact holds
    | opened =>
        refine ⟨holds.collected, fun other binding bound => ?_⟩
        rcases FinMap.eq_or_get?_of_insert bound with ⟨rfl, rfl⟩ | earlier
        · exact fun _ present => absurd present List.not_mem_nil
        · exact holds.slots other binding earlier
  counted holds := ⟨holds.collected, holds.slots⟩

theorem keptBy_bindWithin_collecting (depth : Nat) (type : TypeRef) (access : MemberAccess) (mode : BindingMode) :
    host.collecting.KeptBy (host.bindWithin depth type access mode) :=
  keptBy_bindWithin (fun type _ _ => bindsItself_collecting host type) depth type access mode

theorem keptBy_showHidden_collecting (type : TypeRef) : host.collecting.KeptBy (host.showHidden type) := by
  refine keptBy_showHiddenWithin (fun type _ _ _ _ => installs_collecting host type) (keptBy_bindWithin_collecting _) ?_
    _ type
  exact fun type holds => holds.modifyBinding fun _ _ present => .inl present

/-- A placeholder is resolved with the extension methods that the context has then. -/
theorem collects_resolved {member : PendingMember} {run : Except ScriptError CallableHandle × World}
    (holds : world.context.Collects host.system) (resolved : host.Resolved member world run) :
    run.2.context.Collects host.system := by
  cases resolved with
  | failed same =>
      rcases same with rfl | rfl
      · exact holds
      · exact collects_withExtensions holds
  | present => exact holds
  | @made binding listed handle after bound waits found registered callable =>
      have extended := collects_withExtensions holds
      have knew : host.extensionsIn world.context = none ∨ after.context.extensions = host.extensionsIn world.context :=
        (host.extensions_withExtensions world).imp_right fun same => by rw [registered.rest]; exact same
      have declared (map : ExtensionMap) (same : host.extensionsIn world.context = some map) :
          map.DeclaredIn host.system := by
        have there := ((host.extensions_withExtensions world).resolve_left (by simp [same])).trans same
        exact (extended.collected map there).declaredIn
      have made : (MemberSlot.bound handle).Found host.system after.context.callables after.context.extensions member.type
          (member.table, member.name) :=
        .made ⟨.refl _, knew, declared, List.mem_of_find?_eq_some found, place_of_pending? found⟩ callable
      have settled : (after.context.modifyBinding member.type fun binding =>
          { binding with slots := binding.slots.insert (member.table, member.name) (.bound handle) }).Collects
            host.system := by
        refine (collects_onlyRegistered extended registered).modifyBinding fun binding entry present => ?_
        rcases FinMap.mem_entries_insert present with rfl | older
        · exact .inr made
        · exact .inl older
      exact ⟨settled.collected, settled.slots⟩

theorem respects_collecting (host : Host) : host.RespectsWrites host.collecting where
  toKeptOutside := keptOutside_of_steps fun step holds => by cases step <;> exact ⟨holds.collected, holds.slots⟩
  writeKey _ _ _ holds := ⟨holds.collected, holds.slots⟩
  represent _ _ holds := ⟨holds.collected, holds.slots⟩
  countResolution _ holds := ⟨holds.collected, holds.slots⟩
  bindWith := keptBy_bindWithin_collecting _
  showHidden := keptBy_showHidden_collecting
  resolveMember member world holds := .inl (collects_resolved holds (host.resolved_resolveMember member world))

/-- After every operation all slots still are of walks that knew the extension methods of the context. -/
theorem collects_perform (operation : Operation) (holds : world.context.Collects host.system) :
    (exec (host.perform operation) world).2.context.Collects host.system := by
  have kept := (respects_collecting host).perform operation
    (fun callable _ => (installs_collecting host .object).registers callable)
    fun type _ => keptBy_unbind type fun world holds =>
      ⟨holds.collected, fun other binding bound => holds.slots other binding (FinMap.get?_of_erase bound)⟩
  exact (kept world holds).holds fun _ => id

end Host

end ScriptBridge
