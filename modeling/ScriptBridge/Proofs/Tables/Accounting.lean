import ScriptBridge.Proofs.Host.Lineage
import ScriptBridge.Proofs.Tables.Continuing

/-!
# Counting bound types

A type is counted when it has been bound to the end. A type that is bound once more
while it waits for its base gets a second binding in place of the first, and is
counted twice: so the count is never below the number of bound types. It grows by
the number of the types that become bound if no type that is not bound yet is
reached from its base.
-/

namespace ScriptBridge

namespace TypeSystem

variable {system : TypeSystem}

/-- Types without fields have no constants. -/
theorem constants_eq_nil (none : system.types.all fun definition => definition.fields.isEmpty)
    (type : TypeRef) (access : MemberAccess) (extensions : Option ExtensionMap) :
    (Catalog.ofType system type access extensions).constants = [] := by
  have absent : (system.definition type).fields = [] := by
    cases type with
    | array element => rfl
    | declared index =>
        rw [TypeSystem.definition]
        cases known : system.types[index]? with
        | none => rfl
        | some definition =>
            exact List.isEmpty_iff.mp (List.all_eq_true.mp none definition (List.mem_of_getElem? known))
  simp only [Catalog.ofType, Catalog.scriptFields, TypeSystem.fields, absent, List.map_nil, List.filter_nil]

end TypeSystem

/-- As many types are bound and counted, the same ones, in the same state of the host. -/
structure World.SameBound (before after : World) : Prop where
  store : after.store = before.store
  isBound : ∀ type, after.context.isBound type = before.context.isBound type
  size : after.context.bindings.size = before.context.bindings.size
  typesBound : after.context.counters.typesBound = before.context.counters.typesBound

namespace World.SameBound

variable {before middle after world : World} {type : TypeRef}

theorem trans (first : before.SameBound middle) (second : middle.SameBound after) : before.SameBound after where
  store := second.store.trans first.store
  isBound type := (second.isBound type).trans (first.isBound type)
  size := second.size.trans first.size
  typesBound := second.typesBound.trans first.typesBound

theorem of_onlyRegistered (registered : before.OnlyRegistered after) : before.SameBound after where
  store := by rw [registered.rest]
  isBound := registered.isBound_eq
  size := by rw [registered.bindings_eq]
  typesBound := registered.typesBound_eq

theorem modifyBinding (world : World) (type : TypeRef) (change : TypeBinding → TypeBinding) :
    world.SameBound { world with context := world.context.modifyBinding type change } where
  store := rfl
  isBound _ := Context.isBound_modifyBinding _ _
  size := by
    rw [Context.modifyBinding]
    split
    next binding bound =>
      rw [FinMap.size_insert, show world.context.bindings.get? type = some binding from bound]
      rfl
    next => rfl
  typesBound := by rw [Context.modifyBinding_eq]

theorem of_resolved {host : Host} {member : PendingMember} {run : Except ScriptError CallableHandle × World}
    (resolved : host.Resolved member before run) : before.SameBound run.2 := by
  have extended : before.SameBound (host.withExtensions before) := by
    rcases host.withExtensions_eq before with same | ⟨-, same⟩ <;> rw [same] <;>
      exact ⟨rfl, fun _ => rfl, rfl, rfl⟩
  cases resolved with
  | failed same =>
      rcases same with rfl | rfl
      · exact ⟨rfl, fun _ => rfl, rfl, rfl⟩
      · exact extended
  | present => exact ⟨rfl, fun _ => rfl, rfl, rfl⟩
  | @made binding listed handle after bound waits found registered callable =>
      exact ((extended.trans (.of_onlyRegistered registered)).trans (.modifyBinding after member.type _)).trans
        ⟨rfl, fun _ => rfl, rfl, rfl⟩

end World.SameBound

namespace Host

open Bridge

variable {host : Host} {invariant : Invariant} {world after : World} {type other : TypeRef} {store : HostStore}

section

variable (unchanged : ∀ {before after : World}, before.SameBound after → invariant.holds before →
  invariant.holds after)

include unchanged

theorem installs_of_sameBound (type : TypeRef) : host.Installs invariant type where
  collect _ := unchanged ⟨rfl, fun _ => rfl, rfl, rfl⟩
  represent _ _ := unchanged ⟨rfl, fun _ => rfl, rfl, rfl⟩
  writeEntry _ _ _ := unchanged ⟨rfl, fun _ => rfl, rfl, rfl⟩
  register _ := unchanged ⟨rfl, fun _ => rfl, rfl, rfl⟩
  filled _ holds filled := by
    cases filled with
    | failed registered => exact unchanged (.of_onlyRegistered registered) holds
    | filled registered => exact unchanged (.trans (.of_onlyRegistered registered) (.modifyBinding _ _ _)) holds

theorem furnishes_of_sameBound (type : TypeRef) : host.Furnishes invariant type where
  toInstalls := installs_of_sameBound unchanged type
  constructed holds constructed := by
    cases constructed with
    | absent => exact holds
    | failed registered => exact unchanged (.of_onlyRegistered registered) holds
    | constructed registered =>
        exact unchanged (.trans (.of_onlyRegistered registered) (.modifyBinding _ _ _)) holds

end

/--
Binding the one type comes to bind the other: it is its base, visibly nested in it,
or the run-time type of a value that is handed out with it.
-/
inductive LeadsTo (host : Host) (store : HostStore) (type : TypeRef) : TypeRef → Prop
  | base {base : TypeRef} (known : host.system.base? type = some base) : LeadsTo host store type base
  | nested {nested : TypeRef} (listed : nested ∈ host.nestedToBind type .visible) :
      LeadsTo host store type nested
  | handsOut {value : HostValue} (handed : host.HandsOut type store value)
      (needsProxy : value.toScript? = none) :
      LeadsTo host store type ((store.typeOf? value).getD .object)

/-- Binding the one type comes to bind the other by way of types that are not bound. -/
def Reaches (host : Host) (world : World) : TypeRef → TypeRef → Prop :=
  Relation.ReflTransGen fun type next =>
    world.context.isBound type = false ∧ host.LeadsTo world.store type next

/-- No type that is not bound is reached from its base. -/
def Untangled (host : Host) (world : World) : Prop :=
  ∀ type base, world.context.isBound type = false → host.system.base? type = some base →
    ¬host.Reaches world base type

/-- A type that is not bound in the end was not bound before, as types are bound. -/
theorem isBound_eq_false_of_grown
    (grown : ∀ type, world.context.isBound type = true → after.context.isBound type = true)
    (unbound : after.context.isBound type = false) : world.context.isBound type = false := by
  rw [Bool.eq_false_iff]
  intro bound
  rw [grown type bound] at unbound
  cases unbound

/-- As more types are bound, fewer types are reached. -/
theorem Reaches.of_grown (reaches : host.Reaches after type other) (sameStore : after.store = world.store)
    (grown : ∀ type, world.context.isBound type = true → after.context.isBound type = true) :
    host.Reaches world type other :=
  Relation.ReflTransGen.mono (fun _ _ step => ⟨isBound_eq_false_of_grown grown step.1, sameStore ▸ step.2⟩) _ _
    reaches

theorem Untangled.of_grown (untangled : host.Untangled world) (sameStore : after.store = world.store)
    (grown : ∀ type, world.context.isBound type = true → after.context.isBound type = true) :
    host.Untangled after := by
  intro type base unbound known reaches
  exact untangled type base (isBound_eq_false_of_grown grown unbound) known (reaches.of_grown sameStore grown)

/-- A type leads to lower types, to the type of types, and to what its constants are instances of. -/
theorem LeadsTo.rank_le {next : TypeRef} (leads : host.LeadsTo store type next)
    (constants : ∀ {access extensions} {constant : String × Field},
      constant ∈ (Catalog.ofType host.system type access extensions).constants →
      (constantValue store constant.2).toScript? = none →
      ((store.typeOf? (constantValue store constant.2)).getD .object).rank ≤ type.rank) :
    next = .typeType ∨ next.rank ≤ type.rank := by
  cases leads with
  | base known => exact .inr (Nat.le_of_lt (TypeSystem.rank_lt_of_base? known))
  | nested listed =>
      have foundation := List.mem_append_right (host.definition type).base.toList (List.mem_of_mem_filter listed)
      exact .inr (Nat.le_of_lt (TypeSystem.rank_lt_of_foundation foundation))
  | handsOut handed needsProxy =>
      cases handed with
      | constant listed => exact .inr (constants listed needsProxy)
      | marker => exact .inl rfl
      | member listed => exact .inr (Nat.le_refl _)

/--
Where the type of types is bound, the types are untangled unless some type that is
not bound has a constant whose run-time type was declared later than the type.
-/
theorem untangled_of_constants (bound : world.context.isBound .typeType = true)
    (constants : ∀ type access extensions (constant : String × Field), world.context.isBound type = false →
      constant ∈ (Catalog.ofType host.system type access extensions).constants →
      (constantValue world.store constant.2).toScript? = none →
      ((world.store.typeOf? (constantValue world.store constant.2)).getD .object).rank ≤ type.rank) :
    host.Untangled world := by
  intro type base unbound known reaches
  -- Each step from the base goes to a rank that is no higher, so none comes up to the type again.
  have lower : ∀ other, host.Reaches world base other → other = .typeType ∨ other.rank ≤ base.rank := by
    intro other reached
    induction reached with
    | refl => exact .inr (Nat.le_refl _)
    | @tail middle next _ step ih =>
        rcases step with ⟨waits, leads⟩
        rcases ih with rfl | below
        · rw [bound] at waits
          cases waits
        · rcases leads.rank_le fun listed => constants middle _ _ _ waits listed with rfl | le
          · exact .inl rfl
          · exact .inr (Nat.le_trans le below)
  rcases lower type reaches with rfl | below
  · rw [bound] at unbound
    cases unbound
  · exact absurd (TypeSystem.rank_lt_of_base? known) (Nat.not_lt.mpr below)

/-- A type stays unbound; a set of types has with a type that is not bound all that it leads to. -/
def sparing (host : Host) (type : TypeRef) (store : HostStore) (among : TypeRef → Prop) : Invariant where
  holds world := world.store = store ∧ world.context.isBound type = false ∧
    ∀ other next, among other → world.context.isBound other = false → host.LeadsTo store other next → among next
  excuses := fun _ => False

variable {among : TypeRef → Prop}

theorem sparing_of_grown (holds : (host.sparing type store among).holds world)
    (sameStore : after.store = world.store) (unbound : after.context.isBound type = false)
    (grown : ∀ type, world.context.isBound type = true → after.context.isBound type = true) :
    (host.sparing type store among).holds after := by
  rcases holds with ⟨known, -, closed⟩
  refine ⟨sameStore.trans known, unbound, fun other next present waits => ?_⟩
  exact closed other next present (isBound_eq_false_of_grown grown waits)

theorem sparing_of_sameBound (same : world.SameBound after)
    (holds : (host.sparing type store among).holds world) : (host.sparing type store among).holds after :=
  sparing_of_grown holds same.store ((same.isBound type).trans holds.2.1) fun other bound =>
    (same.isBound other).trans bound

theorem sparing_opened {mode : BindingMode} {run : Except BindError TableId × World} (different : type ≠ other)
    (holds : (host.sparing type store among).holds world) (opened : host.Opened other mode world run) :
    (host.sparing type store among).holds run.2 := by
  cases opened with
  | failed => exact holds
  | opened placed =>
      refine sparing_of_grown holds rfl ?_ fun next bound => ?_
      · rw [← holds.2.1]
        exact (Context.isBound_insert _ _).trans (by rw [decide_eq_false different]; rfl)
      · exact Context.isBound_insert_of_isBound _ _ bound

theorem bindsItself_sparing (different : type ≠ other) :
    host.BindsItself (host.sparing type store among) other where
  toFurnishes := furnishes_of_sameBound sparing_of_sameBound other
  opened := sparing_opened different
  counted holds := sparing_of_grown holds rfl holds.2.1 fun _ => id

/-- Binding a type among some leaves a type unbound that they do not lead to. -/
theorem keptBy_bindWithin_sparing (outside : ¬among type) (depth : Nat) (present : among other)
    (access : MemberAccess) (mode : BindingMode) :
    (host.sparing type store among).KeptBy (host.bindWithin depth other access mode) := by
  induction depth generalizing other access mode with
  | zero => exact .throw _
  | succ depth ih =>
      intro world holds
      rw [bindWithin, exec_bind_of_ok (exec_context world)]
      cases bound : world.context.binding? other with
      | some binding => exact .inl holds
      | none =>
          have waits : world.context.isBound other = false := by rw [Context.isBound, bound]; rfl
          have closed := fun next => holds.2.2 other next present waits
          have others : host.BindsOthers (host.sparing type store among) (host.bindWithin depth) other :=
            { binds := binds_bindWithin depth
              base := fun base known => ih (closed base (.base known))
              nested := fun nested listed => ih (closed nested (.nested listed))
              handsOut := by
                intro start world value began handed needsProxy reached
                rw [began.1] at handed
                rw [reached.1]
                exact ih (closed _ (.handsOut handed needsProxy)) }
          have different : type ≠ other := fun same => outside (same ▸ present)
          exact keptBy_bindAnew (bindsItself_sparing different) others access mode world holds

/-- A type that is not reached from its base is not bound while it waits for its base. -/
theorem isBound_bindBase_eq_false {depth : Nat} {access : MemberAccess} {mode : BindingMode}
    (unbound : world.context.isBound type = false)
    (apart : ∀ base, host.system.base? type = some base → ¬host.Reaches world base type)
    (run : exec (host.bindBase (host.bindWithin depth) type access mode) world = (.ok (), after)) :
    after.context.isBound type = false := by
  rw [bindBase] at run
  split at run
  next base known =>
    have holds : (host.sparing type world.store (host.Reaches world base)).holds world :=
      ⟨rfl, unbound, fun other next reached waits leads => reached.tail ⟨waits, leads⟩⟩
    have kept : (host.sparing type world.store (host.Reaches world base)).KeptBy
        (host.bindWithin depth base access mode) :=
      keptBy_bindWithin_sparing (apart base known) depth .refl access mode
    exact (kept.discard.holds_of_ok holds run).2.1
  next =>
    rcases (Prod.mk.inj run).2 with rfl
    exact unbound

/-! ## Types that are counted at the end of their binding -/

section Pending

variable {family : Nat → Invariant}

/--
Binding a type keeps an invariant with any number of types that are bound and not
counted, if opening a binding adds one to them and counting a type takes one away.
-/
theorem keptBy_bindWithin_pending (excuses : ∀ pending cause, (family pending).excuses cause)
    (unchanged : ∀ {pending : Nat} {before after : World}, before.SameBound after →
      (family pending).holds before → (family pending).holds after)
    (opens : ∀ {pending depth : Nat} {type : TypeRef} {access : MemberAccess} {mode : BindingMode}
      {world middle after : World} {table : TableId}, (family pending).holds world →
      world.context.isBound type = false →
      exec (host.bindBase (host.bindWithin depth) type access mode) world = (.ok (), middle) →
      (family pending).holds middle → host.Opened type mode middle (.ok table, after) →
      (family (pending + 1)).holds after)
    (counts : ∀ {pending : Nat} {world : World}, (family (pending + 1)).holds world →
      (family pending).holds
        { world with context := { world.context with counters := world.context.counters.countType } })
    (depth pending : Nat) (type : TypeRef) (access : MemberAccess) (mode : BindingMode) :
    (family pending).KeptBy (host.bindWithin depth type access mode) := by
  induction depth generalizing pending type access mode with
  | zero => exact .throw _
  | succ depth ih =>
      refine Invariant.keptBy_of_ok (excuses pending) fun world result after holds run => ?_
      rcases exec_bindWithin_eq_ok run with
        ⟨binding, -, -, rfl⟩ | ⟨bound, inner, based, opened, last, same, basing, opening, furnishing, rfl⟩
      · exact holds
      · rcases Nat.succ.inj same with rfl
        have unbound : world.context.isBound type = false := by rw [Context.isBound, bound]; rfl
        have others := fun pending => BindsOthers.of_all (binds_bindWithin depth) (ih pending) type
        have reached := ((others pending).bindBase access mode).holds_of_ok holds basing
        have openedHere := opening ▸ host.opened_openBinding type mode based
        have begun := opens holds unbound basing reached openedHere
        -- While its members are installed, the type is one more that is bound and not counted.
        have kept := (furnishes_of_sameBound unchanged type).furnish (others (pending + 1)) access mode result
        exact counts (kept.holds_of_ok ⟨begun, openedHere.placed⟩ furnishing).1

end Pending

/-- As many types at least are counted as are bound, save for some that are not counted yet. -/
def counting (offset pending : Nat) : Invariant where
  holds world :=
    world.context.bindings.size + offset ≤ world.context.counters.typesBound + pending
  excuses := fun _ => True

theorem counting_of_sameBound {offset pending : Nat} {before after : World} (same : before.SameBound after)
    (holds : (counting offset pending).holds before) : (counting offset pending).holds after := by
  simp only [counting] at holds ⊢
  rwa [same.size, same.typesBound]

theorem keptBy_bindWithin_counting (offset depth pending : Nat) (type : TypeRef) (access : MemberAccess)
    (mode : BindingMode) : (counting offset pending).KeptBy (host.bindWithin depth type access mode) := by
  refine @keptBy_bindWithin_pending host (counting offset) (fun _ _ => trivial) counting_of_sameBound ?_ ?_
    depth pending type access mode
  · intro pending depth type access mode world middle after table _ _ _ holds opened
    cases opened with
    | opened placed =>
        simp only [counting, FinMap.size_insert] at holds ⊢
        split <;> omega
  · intro pending world holds
    simp only [counting, BindingCounters.countType] at holds ⊢
    omega

/--
In the state of the host the types are untangled, and exactly as many are counted as
are bound, save for some that are not counted yet.
-/
def countingExactly (host : Host) (store : HostStore) (offset counted pending : Nat) : Invariant where
  holds world := world.store = store ∧ host.Untangled world ∧
    world.context.bindings.size + offset = world.context.counters.typesBound + counted + pending
  excuses := fun _ => True

theorem keptBy_bindWithin_countingExactly (offset counted depth pending : Nat) (type : TypeRef)
    (access : MemberAccess) (mode : BindingMode) :
    (host.countingExactly store offset counted pending).KeptBy (host.bindWithin depth type access mode) := by
  refine @keptBy_bindWithin_pending host (host.countingExactly store offset counted) (fun _ _ => trivial)
    ?_ ?_ ?_ depth pending type access mode
  · rintro pending before after same ⟨sameStore, untangled, balance⟩
    refine ⟨same.store.trans sameStore, untangled.of_grown same.store fun type bound => ?_, ?_⟩
    · exact (same.isBound type).trans bound
    · rwa [same.size, same.typesBound]
  · rintro pending depth type access mode world middle after table ⟨-, apart, -⟩ unbound basing
      ⟨sameStore, untangled, balance⟩ opened
    have waits := isBound_bindBase_eq_false unbound (fun base known => apart type base unbound known) basing
    cases opened with
    | opened placed =>
        refine ⟨sameStore, untangled.of_grown rfl fun other bound => ?_, ?_⟩
        · exact Context.isBound_insert_of_isBound _ _ bound
        · rw [Context.isBound, Context.binding?] at waits
          simp only [FinMap.size_insert, waits, Bool.false_eq_true, if_false]
          omega
  · rintro pending world ⟨sameStore, untangled, balance⟩
    refine ⟨sameStore, untangled.of_grown rfl fun _ => id, ?_⟩
    simp only [BindingCounters.countType]
    omega

/-- If the types are untangled, binding a type counts just the types that become bound. -/
theorem typesBound_bindWith (untangled : host.Untangled world) {access : MemberAccess} {mode : BindingMode}
    {table : TableId} (run : exec (host.bindWith type access mode) world = (.ok table, after)) :
    after.context.counters.typesBound + world.context.bindings.size =
      world.context.counters.typesBound + after.context.bindings.size := by
  have kept : (host.countingExactly world.store world.context.counters.typesBound
      world.context.bindings.size 0).KeptBy (host.bindWith type access mode) :=
    keptBy_bindWithin_countingExactly _ _ _ _ _ _ _
  have balance := (kept.holds_of_ok ⟨rfl, untangled, by omega⟩ run).2.2
  omega

theorem respects_counting (host : Host) (offset : Nat) : host.RespectsWrites (counting offset 0) where
  toKeptOutside := keptOutside_of_steps fun step holds => by cases step <;> exact holds
  represent _ _ holds := holds
  countResolution _ holds := holds
  bindWith := keptBy_bindWithin_counting offset _ 0
  showHidden type := keptBy_showHiddenWithin (fun type _ _ _ _ => installs_of_sameBound counting_of_sameBound type)
    (keptBy_bindWithin_counting offset _ 0) (fun type => counting_of_sameBound (.modifyBinding _ type _)) _ type
  resolveMember member world holds :=
    .inl (counting_of_sameBound (.of_resolved (host.resolved_resolveMember member world)) holds)
  writeKey _ _ _ holds := holds

end Host

end ScriptBridge
