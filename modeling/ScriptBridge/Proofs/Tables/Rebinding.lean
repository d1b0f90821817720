import ScriptBridge.Proofs.Namespaces.Orderly
import ScriptBridge.Proofs.Namespaces.Surveyed
import ScriptBridge.Proofs.Tables.Layout

/-!
# Tables that are used again

A type that was dropped and is bound again gets the table that it had. What binding does on
the way to that changes little in the table: it enters what the type hands out, and the ways
to types that are bound in the end. Every other entry is what it was.
-/

namespace ScriptBridge

open Bridge

theorem ScriptValue.isNil_eq_false_iff {value : ScriptValue} :
    value.isNil = false ↔ value.isData = true ∨ value.asTable?.isSome = true := by
  cases value <;> simp [isNil, isData, asTable?]

namespace Host

variable {host : Host} {type : TypeRef} {name : String}

theorem Enters.of_unregistered (enters : host.unregistered.Enters type name) : host.Enters type name := by
  cases enters with
  | constant listed => exact .constant listed
  | marker => exact .marker
  | member listed => exact .member listed
  | cast => exact .cast

theorem enters_of_handedOut {access : MemberAccess} {store : HostStore} {value : HostValue}
    (handedOut : (host.handedOut type access store).get? name = some value) : host.Enters type name := by
  rw [handedOut_eq_ofList] at handedOut
  have offered := FinMap.mem_entries_ofList (FinMap.mem_entries_of_get? handedOut)
  exact (enters_of_offered offered).of_unregistered

/-- Where no name that is entered is on the way to a type, none that is handed out is. -/
theorem NamesApart.waysClear (apart : host.NamesApart) (access : MemberAccess) (store : HostStore)
    (among : TypeRef → Prop) : host.WaysClear access store among := by
  intro type other name rest _ _ onWay
  cases handedOut : (host.handedOut type access store).get? name with
  | none => rfl
  | some value =>
      have onPath : host.system.segments type ++ [name] <+: host.system.segments other := by
        rw [onWay]
        exact ⟨rest, by rw [List.append_assoc]; rfl⟩
      exact absurd (.towards trivial onPath) (apart type name (enters_of_handedOut handedOut))

end Host

/--
The tables of a context after some types were bound, compared with those of a context before. They are orderly, a type
is at its table, paths lead on, and new ones are on the way to bound types. Under names that the type does not hand out,
its table has data where it had data before.
-/
structure Context.Regrown (host : Host) (config : Config) (store : HostStore) (type : TypeRef) (table : TableId)
    (start context : Context) : Prop where
  tables : ∃ placed : TypeRef → TableId → Prop,
    Orderly host (fun type => ∃ id, placed type id) placed context.namespaces.root context.heap ∧
      placed type table ∧ ∀ other id, context.namespaces.table? other = some id → placed other id
  kept : ∀ path, (start.heap.walk? start.namespaces.root path).isSome = true →
    (context.heap.walk? context.namespaces.root path).isSome = true
  made : ∀ path, (context.heap.walk? context.namespaces.root path).isSome = true →
    (start.heap.walk? start.namespaces.root path).isSome = true ∨
      ∃ other, context.isBound other = true ∧ path <+: host.system.segments other
  data : ∀ name, (host.handedOut type config.access store).get? name = none →
    (context.heap.get table (.string name)).isData = (start.heap.get table (.string name)).isData

namespace Context.Regrown

variable {host : Host} {config : Config} {store : HostStore} {type : TypeRef} {table : TableId}
  {start before after : Context}

theorem refl {known : TypeRef → TableId → Prop} (surveyed : start.Surveyed host known) (at_ : known type table) :
    start.Regrown host config store type table start where
  tables := by
    rcases surveyed.tables with ⟨placed, orderly, remembers, tabled⟩
    exact ⟨placed, orderly, remembers type table at_, tabled⟩
  kept _ leads := leads
  made _ leads := .inl leads
  data _ _ := rfl

theorem of_same (regrown : start.Regrown host config store type table before)
    (bound : ∀ other, after.isBound other = before.isBound other) (namespaces : after.namespaces = before.namespaces)
    (heap : after.heap = before.heap) : start.Regrown host config store type table after where
  tables := by
    rw [namespaces, heap]
    exact regrown.tables
  kept := by
    rw [namespaces, heap]
    exact regrown.kept
  made := by
    simp only [namespaces, heap, bound]
    exact regrown.made
  data := by
    rw [heap]
    exact regrown.data

/-- Opening the binding of a type makes the way to the type. -/
theorem opened {other : TypeRef} {mode : BindingMode} {placedAt : TableId} {world next : World}
    (regrown : start.Regrown host config store type table world.context)
    (opened : host.Opened other mode world (.ok placedAt, next)) :
    start.Regrown host config store type table next.context := by
  have bound := @Host.Opened.isBound_iff _ _ _ _ _ _ opened
  rcases regrown.tables with ⟨placed, orderly, own, tabled⟩
  cases opened with
  | @opened _ namespaces heap made =>
  have charted : NamespaceTree.Charted host.system placed world.context.namespaces world.context.heap :=
    ⟨orderly.toShaped, tabled⟩
  have leads := charted.isSome_walk?_place made
  refine ⟨⟨_, (orderly.place tabled made).mono ?_, .inl own, (charted.place made).known⟩, fun path led => ?_,
    fun path led => ?_, fun name absent => ?_⟩
  · rintro other (⟨id, before⟩ | rfl)
    · exact ⟨id, .inl before⟩
    · exact ⟨_, .inr ⟨rfl, rfl⟩⟩
  · exact (leads path).mpr (.inl (regrown.kept path led))
  · rcases (leads path).mp led with before | onWay
    · refine (regrown.made path before).imp_right ?_
      rintro ⟨goal, wasBound, onWay⟩
      exact ⟨goal, bound.mpr (.inr wasBound), onWay⟩
    · exact .inr ⟨other, bound.mpr (.inl rfl), onWay⟩
  · have grows := (NamespaceTree.place_spec made).1
    rw [← regrown.data name absent]
    cases isData : (world.context.heap.get table (.string name)).isData with
    | true =>
        rw [← isData]
        exact congrArg ScriptValue.isData (grows.data _ _ isData)
    | false => exact grows.blank _ _ _ (orderly.walk?_segments own).2 isData

/-- What a type hands out is entered where no table is, under names that are handed out. -/
theorem entered (regrown : start.Regrown host config store type table before) (apart : host.NamesApart)
    {other : TypeRef} {placedAt : TableId} (there : before.namespaces.table? other = some placedAt) {name : String}
    {value : HostValue} (offered : (name, value) ∈ host.offers other config.access store) {shown : ScriptValue}
    (noTable : shown.asTable? = none) :
    start.Regrown host config store type table
      { before with heap := before.heap.set placedAt (.string name) shown } := by
  rcases regrown.tables with ⟨placed, orderly, own, tabled⟩
  have known := tabled other placedAt there
  have enters := (Host.enters_of_offered offered).of_unregistered
  have leads := orderly.walk?_enterVacant known (orderly.child?_eq_none apart known enters) noTable
  refine ⟨⟨placed, orderly.enterData apart known enters noTable, own, tabled⟩, fun path led => ?_, fun path led => ?_,
    fun key absent => ?_⟩
  · exact (congrArg Option.isSome (leads path)).trans (regrown.kept path led)
  · exact regrown.made path ((congrArg Option.isSome (leads path)).symm.trans led)
  · have there := TableHeap.isSome_table? (orderly.walk?_segments known).2
    rw [← regrown.data key absent, TableHeap.get_set _ there, if_neg]
    rintro ⟨rfl, sameKey⟩
    -- The entry is in the table of the type itself, so its name is handed out.
    have kind := (orderly.walk?_segments own).2.symm.trans (orderly.walk?_segments known).2
    obtain rfl := TableKind.type.inj (Option.some.inj kind)
    obtain rfl := ScriptKey.string.inj sameKey
    have handedOut := Host.isSome_get?_handedOut offered
    rw [absent] at handedOut
    cases handedOut

end Context.Regrown

namespace Host

variable {host : Host} {config : Config} {store : HostStore} {among : TypeRef → Prop} {start : World} {type : TypeRef}
  {table : TableId}

/-- While types are bound in the configured way, the tables go on as they were. -/
theorem regrown_of_buildSteps (apart : host.NamesApart)
    (regrown : start.context.Regrown host config store type table start.context) {state : List TypeRef × World}
    (steps : Relation.ReflTransGen (host.BuildStep config store among) ([], start) state) :
    start.context.Regrown host config store type table state.2.context := by
  induction steps with
  | refl => exact regrown
  | tail _ step ih =>
      cases step with
      | aside aside => exact ih.of_same aside.isBound_eq aside.namespaces_eq aside.heap_eq
      | opened _ opened => exact ih.opened opened
      | entered placed offered noTable => exact ih.entered apart placed offered noTable
      | rebound =>
          refine ih.of_same (fun _ => Context.isBound_modifyBinding _ _) ?_ ?_
          · rw [Context.modifyBinding_eq]
          · rw [Context.modifyBinding_eq]
      | ended => exact ih

end Host

namespace Context

variable {host : Host} {config : Config} {store : HostStore} {among : TypeRef → Prop} {type : TypeRef}
  {start one other : Context} {settlement otherSettlement : Settlement}

/-- A table in the tree has an entry if it has data there, or if the path goes on. -/
theorem isNil_get_eq_false_iff {heap : TableHeap} {root table : TableId} {path : List String}
    (reached : heap.walk? root path = some table) (name : String) :
    (heap.get table (.string name)).isNil = false ↔
      (heap.get table (.string name)).isData = true ∨ (heap.walk? root (path ++ [name])).isSome = true := by
  rw [ScriptValue.isNil_eq_false_iff, Shaped.walk?_child reached, TableHeap.child?]
  cases heap.get table (.string name) <;> simp [ScriptValue.asTable?]

/-- The tables of a settled type have data under the same names, as far as these are handed out. -/
theorem SettledBy.isData_eq (settled : one.SettledBy host config store type settlement)
    (otherSettled : other.SettledBy host config store type otherSettlement) {name : String}
    (handedOut : ((host.handedOut type config.access store).get? name).isSome = true) :
    (one.heap.get settlement.table (.string name)).isData =
      (other.heap.get otherSettlement.table (.string name)).isData := by
  have displays := settled.displays
  have otherDisplays := otherSettled.displays
  have same := host.rel_handedOutWith type config.access store (Host.castValue type settlement.cast)
    (Host.castValue type otherSettlement.cast) name
  rw [Host.handedOut_eq, host.isSome_handedOutWith type _ _ .null (Host.castValue type settlement.cast)] at handedOut
  generalize found : (host.handedOutWith type config.access store (Host.castValue type settlement.cast)).get? name =
    shown at same handedOut
  generalize otherFound : (host.handedOutWith type config.access store
    (Host.castValue type otherSettlement.cast)).get? name = otherShown at same
  cases same with
  | none => cases handedOut
  | @some value otherValue related =>
      have bothNull : value.isNull = otherValue.isNull := by
        rcases related with rfl | ⟨-, rfl, rfl⟩
        · rfl
        · rfl
      cases isNull : value.isNull with
      | true =>
          rw [displays.blanks name value found isNull,
            otherDisplays.blanks name otherValue otherFound (bothNull ▸ isNull)]
      | false =>
          have present := (displays.entries name value found isNull).isData isNull
          have otherNotNull := bothNull.symm.trans isNull
          rw [present, (otherDisplays.entries name otherValue otherFound otherNotNull).isData otherNotNull]

/-- A name under which a path goes on is not handed out. -/
theorem Regrown.handedOut_eq_none {table : TableId} (regrown : start.Regrown host config store type table one)
    (apart : host.NamesApart) {name : String}
    (leads : (one.heap.walk? one.namespaces.root (host.system.segments type ++ [name])).isSome = true) :
    (host.handedOut type config.access store).get? name = none := by
  rcases regrown.tables with ⟨placed, orderly, -, -⟩
  rcases Option.isSome_iff_exists.mp leads with ⟨id, reached⟩
  cases handedOut : (host.handedOut type config.access store).get? name with
  | none => rfl
  | some value =>
      have onWay := (orderly.leads _ id reached).mono fun _ _ => trivial
      exact absurd onWay (apart type name (Host.enters_of_handedOut handedOut))

/--
A type that was bound in tables that were there has entries under the names under which it has entries in a context that
was built up with the same types; and its table has the entries that it had before under names that are not handed out.
-/
theorem Regrown.entry_iff (apart : host.NamesApart) (settled : one.SettledBy host config store type settlement)
    (begun : start.Regrown host config store type settlement.table start)
    (regrown : start.Regrown host config store type settlement.table one)
    (placed : ∀ type binding, one.binding? type = some binding → one.namespaces.table? type = some binding.classTable)
    (otherSettled : other.SettledBy host config store type otherSettlement)
    (laidOut : other.LaidOut host config store among) (mapped : other.Mapped host config store)
    (sameTypes : ∀ type, other.isBound type = one.isBound type) (name : String) :
    (one.heap.get settlement.table (.string name)).isNil = false ↔
      (other.heap.get otherSettlement.table (.string name)).isNil = false ∨
        (host.handedOut type config.access store).get? name = none ∧
          (start.heap.get settlement.table (.string name)).isNil = false := by
  rcases begun.tables with ⟨_, startOrderly, startOwn, -⟩
  rcases regrown.tables with ⟨_, orderly, own, tabled⟩
  rw [isNil_get_eq_false_iff (orderly.walk?_segments own).1,
    isNil_get_eq_false_iff (mapped.orderly.walk?_segments otherSettled.displays.placed).1,
    isNil_get_eq_false_iff (startOrderly.walk?_segments startOwn).1]
  constructor
  · rintro (isData | leads)
    · cases handedOut : (host.handedOut type config.access store).get? name with
      | none => exact .inr ⟨rfl, .inl ((regrown.data name handedOut).symm.trans isData)⟩
      | some value =>
          have isHandedOut := Option.isSome_of_mem handedOut
          exact .inl (.inl ((settled.isData_eq otherSettled isHandedOut).symm.trans isData))
    · rcases regrown.made _ leads with before | ⟨goal, bound, onWay⟩
      · exact .inr ⟨begun.handedOut_eq_none apart before, .inr before⟩
      · rcases laidOut.settled goal ((laidOut.bound goal).mp ((sameTypes goal).trans bound)) with ⟨found, settledGoal⟩
        have reached := (mapped.orderly.walk?_segments settledGoal.displays.placed).1
        exact .inl (.inr (Shaped.isSome_walk?_onWay reached onWay))
  · rintro ((isData | leads) | ⟨absent, isData | leads⟩)
    · have isHandedOut := mapped.names type _ name otherSettled.displays.placed isData
      exact .inl ((settled.isData_eq otherSettled isHandedOut).trans isData)
    · rcases Option.isSome_iff_exists.mp leads with ⟨id, found⟩
      rcases (mapped.orderly.leads _ id found).of_unregistered with impossible | ⟨goal, bound, onWay⟩
      · simp at impossible
      · rcases Option.isSome_iff_exists.mp ((sameTypes goal).symm.trans bound) with ⟨binding, boundHere⟩
        have reached := (orderly.walk?_segments (tabled goal _ (placed goal binding boundHere))).1
        exact .inr (Shaped.isSome_walk?_onWay reached onWay)
    · exact .inl ((regrown.data name absent).trans isData)
    · exact .inr (regrown.kept _ leads)

end Context

namespace Host

variable {host : Host} {config : Config} {world after : World} {type : TypeRef}

/-! ## Contexts that go on -/

/-- No step changes how a context is configured, or which extension methods join in it. -/
theorem Step.keeps_configuration (step : host.Step world after) :
    after.context.config = world.context.config ∧
      host.extensionsIn after.context = host.extensionsIn world.context := by
  cases step with
  | bind step => exact ⟨config_eq_of_bindSteps (.single step), extensionsIn_eq_of_bindSteps (.single step)⟩
  | outside step => cases step <;> exact ⟨rfl, rfl⟩
  | unbind => exact ⟨rfl, rfl⟩

/-- The cache is consistent, and the configuration and the extension methods are those of a fresh context. -/
def configuring (host : Host) (config : Config) : Invariant where
  holds world := world.context.cache.Consistent ∧ world.context.config = config ∧
    host.extensionsIn world.context = host.joined config
  excuses := fun _ => False

theorem Step.configuring (step : host.Step world after) (holds : (host.configuring config).holds world) :
    (host.configuring config).holds after :=
  ⟨step.consistent holds.1, step.keeps_configuration.1.trans holds.2.1, step.keeps_configuration.2.trans holds.2.2⟩

/-- However a context has come about, types are bound in it as it was configured. -/
theorem configured_of_changes {writable : World → TableId → Prop} {start : World} {tag : CacheTag}
    (fresh : start.context = .fresh config tag)
    (changes : Relation.ReflTransGen (host.Change writable) start world)
    (stands : world.context.namespaces.Stands world.context.heap) : host.Configured config world.store world := by
  have holds : (host.configuring config).holds world := by
    clear stands
    induction changes with
    | refl =>
        change _ ∧ _ ∧ _
        rw [fresh]
        exact ⟨IdentityCache.consistent_empty tag, rfl, rfl⟩
    | tail _ change ih =>
        refine change.holds (respects_of_steps Step.configuring) (fun _ => id) (fun callable => ?_)
          (fun type holds => (Step.unbind _ type).configuring holds) (fun _ _ holds => holds) ih
        exact .ofStepwise (binds_register callable).steps fun _ _ => Step.configuring
  exact ⟨holds.2.1, rfl, holds.2.2, stands, holds.1⟩

end Host

end ScriptBridge
