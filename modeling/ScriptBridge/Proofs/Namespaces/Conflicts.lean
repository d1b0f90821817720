import ScriptBridge.Proofs.Namespaces.Requests
import ScriptBridge.Proofs.Namespaces.Surveyed
import ScriptBridge.Proofs.Steps.Depth

/-!
# Types that are not in each other's way

Among orderly tables a type can only not be placed because another type stands at its
path. A type that asks for nothing but its base and the type of types is therefore bound
without a conflict wherever these types do not share their paths with others.
-/

namespace ScriptBridge

namespace Orderly

variable {host : Host} {goals : TypeRef → Prop} {placed : TypeRef → TableId → Prop} {root : TableId}
  {heap : TableHeap} {type : TypeRef} {way : List String} {error : BindError}

/-- No data is on the way to a type. -/
theorem notData_towards (orderly : Orderly host goals placed root heap) (apart : host.NamesApart) {id : TableId}
    {name : String} (reached : heap.walk? root way = some id) (towards : way ++ [name] <+: host.system.segments type) :
    (heap.get id (.string name)).isData = false := by
  refine Bool.eq_false_iff.mpr fun isData => ?_
  rcases orderly.data way id name reached isData with ⟨other, stands, enters⟩
  rw [((orderly.types way id other).mp ⟨reached, stands⟩).2] at towards
  exact apart other name enters (.towards trivial towards)

/-- The tables on the way to a type are found or made. -/
theorem exists_descend (orderly : Orderly host goals placed root heap) (apart : host.NamesApart) (goal : goals type)
    (typeName : String) {segments : List String} {current : TableId} (reached : heap.walk? root way = some current)
    (towards : way ++ segments <+: host.system.segments type) :
    ∃ result, NamespaceTree.descend typeName segments (NamespaceTree.dotted way) current heap = .ok result := by
  induction segments generalizing way current heap with
  | nil => exact ⟨_, rfl⟩
  | cons segment rest ih =>
      rw [List.append_cons] at towards
      have noData := orderly.notData_towards apart reached ((List.prefix_append _ rest).trans towards)
      rw [NamespaceTree.descend, ← NamespaceTree.dotted_concat]
      cases entry : heap.get current (.string segment) with
      | table next =>
          have found := (Shaped.walk?_child reached segment).trans (TableHeap.child?_eq_some.mpr entry)
          exact ih orderly found towards
      | nil =>
          have leads : host.Leads goals (way ++ [segment]) :=
            .towards goal ((List.prefix_append _ rest).trans towards)
          rcases orderly.enterSpace reached entry leads with ⟨made, found⟩
          rw [← NamespaceTree.dotted_concat] at made found
          exact ih made found towards
      | _ =>
          rw [entry] at noData
          cases noData

/-- The table of a type is found or made, or the table of another type is at its path. -/
theorem placeLeaf_eq_error (orderly : Orderly host goals placed root heap) (apart : host.NamesApart) {name : String}
    {parent : TableId} (own : host.system.segments type = way ++ [name]) (reached : heap.walk? root way = some parent)
    (failed : NamespaceTree.placeLeaf host.system type name parent heap = .error error) :
    ∃ other id, other ≠ type ∧ placed other id ∧ host.system.segments other = host.system.segments type := by
  have onPath : way ++ [name] <+: host.system.segments type := by rw [own]
  have noData := orderly.notData_towards apart reached onPath
  rw [NamespaceTree.placeLeaf] at failed
  cases entry : heap.get parent (.string name) with
  | table existing =>
      have found := (Shaped.walk?_child reached name).trans (TableHeap.child?_eq_some.mpr entry)
      rcases orderly.kinds _ existing found with ⟨kind, known, notPlain⟩
      cases kind with
      | plain => exact absurd rfl notPlain
      | space path =>
          simp only [entry, known] at failed
          cases failed
      | type other =>
          rcases (orderly.types _ existing other).mp ⟨found, known⟩ with ⟨there, samePath⟩
          refine ⟨other, existing, ?_, there, samePath.symm.trans own.symm⟩
          rintro rfl
          simp only [entry, known, if_true] at failed
          cases failed
  | nil =>
      rw [entry] at failed
      cases failed
  | _ =>
      rw [entry] at noData
      cases noData

/-- A type can only not be placed because another type was placed at its path. -/
theorem place_eq_error {tree : NamespaceTree} (orderly : Orderly host goals placed tree.root heap)
    (apart : host.NamesApart) (failed : tree.place host.system heap type = .error error) :
    ∃ other id, other ≠ type ∧ placed other id ∧ host.system.segments other = host.system.segments type := by
  have widened : Orderly host (fun other => goals other ∨ other = type) placed tree.root heap :=
    orderly.mono fun _ => .inl
  have reached := heap.walk?_root tree.root
  cases known : tree.table? type with
  | some id =>
      rw [NamespaceTree.place, known] at failed
      cases failed
  | none =>
      rcases widened.exists_descend apart (.inr rfl) (host.system.fullName type) reached (List.dropLast_prefix _) with
        ⟨parent, descended⟩
      rcases widened.descend reached (.inr rfl) (List.dropLast_prefix _) descended with ⟨made, found⟩
      rw [NamespaceTree.place_of_descend known descended] at failed
      cases leaf : NamespaceTree.placeLeaf host.system type ((host.system.segments type).getLastD "") parent.1
        parent.2 with
      | ok result =>
          rw [leaf] at failed
          cases failed
      | error conflict =>
          exact made.placeLeaf_eq_error apart (NamespaceTree.segments_eq host.system type) found leaf

end Orderly

/-- Of two types of one path, no more than one is known to be at a table. -/
theorem Context.Surveyed.eq_of_segments_eq {host : Host} {known : TypeRef → TableId → Prop} {context : Context}
    {type other : TypeRef} (surveyed : context.Surveyed host known) {table otherTable : TableId}
    (at_ : known type table) (otherAt : known other otherTable)
    (same : host.system.segments other = host.system.segments type) : other = type := by
  rcases surveyed.tables with ⟨placed, orderly, remembers, -⟩
  exact orderly.type_unique (remembers type table at_) (remembers other otherTable otherAt) same

namespace Host

open Bridge

variable {host : Host} {α β : Type}

/-- A run that ends because something is in the way of a type. -/
def Conflicted (run : Except BindError α × World) : Prop :=
  ∃ path name, run.1 = .error (.namespaceConflict path name)

/-- A run that comes upon a conflict does so in its first part, or in what follows that. -/
theorem conflicted_bind {action : Bridge BindError α} {next : α → Bridge BindError β} {world : World}
    (conflicted : Conflicted (exec (action >>= next) world)) :
    Conflicted (exec action world) ∨
      ∃ value after, exec action world = (.ok value, after) ∧ Conflicted (exec (next value) after) := by
  rcases conflicted with ⟨path, name, failed⟩
  rw [exec_bind] at failed
  cases run : exec action world with
  | mk result after =>
      rw [run] at failed
      cases result with
      | error error => exact .inl ⟨path, name, congrArg Except.error (Except.error.inj failed)⟩
      | ok value => exact .inr ⟨value, after, rfl, path, name, failed⟩

theorem conflicted_discard {action : Bridge BindError α} {world : World}
    (conflicted : Conflicted (exec (discard action) world)) : Conflicted (exec action world) := by
  rcases conflicted with ⟨path, name, failed⟩
  rw [exec_discard] at failed
  cases run : exec action world with
  | mk result after =>
      rw [run] at failed
      cases result with
      | error error => exact ⟨path, name, congrArg Except.error (Except.error.inj failed)⟩
      | ok value => cases failed

/-- The operation never comes upon a conflict. -/
def Unhindered (action : Bridge BindError α) : Prop := ∀ world, ¬Conflicted (exec action world)

namespace Unhindered

theorem pure (value : α) : Unhindered (Pure.pure value) := fun _ ⟨_, _, failed⟩ => by cases failed

theorem throw {error : BindError} (other : error.kind ≠ "NamespaceConflict") :
    Unhindered (MonadExcept.throw error : Bridge BindError α) := by
  rintro world ⟨path, name, failed⟩
  exact other (by rw [Except.error.inj failed]; rfl)

theorem context : Unhindered Bridge.context := fun _ ⟨_, _, failed⟩ => by cases failed

theorem store : Unhindered Bridge.store := fun _ ⟨_, _, failed⟩ => by cases failed

theorem modifyContext (change : Context → Context) : Unhindered (Bridge.modifyContext change) :=
  fun _ ⟨_, _, failed⟩ => by cases failed

theorem bind {action : Bridge BindError α} {next : α → Bridge BindError β} (first : Unhindered action)
    (rest : ∀ value, Unhindered (next value)) : Unhindered (action >>= next) := by
  intro world conflicted
  rcases conflicted_bind conflicted with early | ⟨value, after, -, late⟩
  · exact first world early
  · exact rest value after late

theorem mapM {items : List α} {next : α → Bridge BindError β} (each : ∀ item, Unhindered (next item)) :
    Unhindered (items.mapM next) := by
  induction items with
  | nil => exact pure []
  | cons item rest ih =>
      rw [List.mapM_cons]
      exact (each item).bind fun _ => ih.bind fun _ => pure _

theorem register (callable : Callable) : Unhindered (Bridge.register callable) := by
  rintro world ⟨path, name, failed⟩
  rcases Nat.lt_or_ge world.context.callables.size UInt32.size with room | full
  · rw [exec_register_of_room room] at failed
    cases failed
  · rw [exec_register_of_full full] at failed
    cases failed

theorem installMember (host : Host) (type : TypeRef) (access : MemberAccess) (mode : BindingMode)
    (member : CatalogMember) : Unhindered (host.installMember type access mode member) := by
  cases mode with
  | eager => exact .bind (.modifyContext _) fun _ => .bind (.register _) fun _ => .pure _
  | «lazy» => exact .bind (.register _) fun _ => .pure _

theorem installItems (type : TypeRef) (indexers : List PropertyDef) : Unhindered (Host.installItems type indexers) := by
  rw [Host.installItems]
  split
  · exact .pure _
  · exact .bind (.register _) fun _ => .bind (.register _) fun _ => .pure _

theorem extensionMap (host : Host) : Unhindered host.extensionMap := by
  rintro world ⟨path, name, failed⟩
  rw [exec_extensionMap] at failed
  cases failed

/-- Installing the members of a type without constants hands nothing out. -/
theorem installMembers {type : TypeRef} (noFields : (host.system.definition type).fields = []) (bind : Binder)
    (access : MemberAccess) (mode : BindingMode) : Unhindered (host.installMembers bind type access mode) := by
  refine .bind .context fun context => ?_
  split
  · exact .throw (by simp [BindError.kind])
  · refine .bind (extensionMap host) fun extensions => .bind .store fun store => ?_
    have none : (Catalog.ofType host.system type access extensions).constants = [] := by
      simp only [Catalog.ofType, Catalog.scriptFields, TypeSystem.fields, noFields, List.map_nil, List.filter_nil]
    rw [none]
    refine .bind (.pure _) fun _ => ?_
    refine .bind (.mapM fun member => installMember host type access mode member) fun slots => ?_
    refine .bind (.mapM fun entry => .bind (.register _) fun _ => .pure _) fun operators => ?_
    refine .bind (installItems type _) fun items => .bind .context fun context => ?_
    split
    · exact .throw (by simp [BindError.kind])
    · exact .modifyContext _

theorem installConstructor (host : Host) (type : TypeRef) : Unhindered (host.installConstructor type) := by
  rw [Host.installConstructor]
  split
  · exact .pure _
  · refine .bind (.register _) fun handle => .bind .context fun context => ?_
    split
    · exact .throw (by simp [BindError.kind])
    · exact .modifyContext _

end Unhindered

/-- No other type has the path of a type. -/
def Sole (host : Host) (type : TypeRef) : Prop :=
  ∀ other, host.system.segments other = host.system.segments type → other = type

/--
Types that ask for no others: they have no constants, no nested types and no members of an enumeration, and nothing
else has their paths.
-/
structure Undisputed (host : Host) (among : TypeRef → Prop) : Prop where
  typeType : among .typeType
  base : ∀ type base, among type → host.system.base? type = some base → among base
  noFields : ∀ type, among type → (host.system.definition type).fields = []
  noNested : ∀ type, among type → (host.system.definition type).nested = []
  noEnumeration : ∀ type, among type → (host.system.definition type).isEnumeration = false
  sole : ∀ type, among type → host.Sole type

variable {known : TypeRef → TableId → Prop} {among : TypeRef → Prop} {type : TypeRef} {world : World}

/-- A type with a path of its own is opened without a conflict. -/
theorem not_conflicted_openBinding (apart : host.NamesApart) (sole : host.Sole type)
    (surveyed : world.context.Surveyed host known) (mode : BindingMode) :
    ¬Conflicted (exec (host.openBinding type mode) world) := by
  rintro ⟨path, name, failed⟩
  rcases surveyed.tables with ⟨placed, orderly, -, -⟩
  simp only [openBinding, exec_bind, exec_context, exec_ofExcept] at failed
  cases made : world.context.namespaces.place host.system world.context.heap type with
  | ok result =>
      rw [made] at failed
      cases failed
  | error error =>
      rcases orderly.place_eq_error apart made with ⟨other, id, different, -, samePath⟩
      exact different (sole other samePath)

theorem not_conflicted_ensureBoundBy {bind : Binder}
    (binds : ∀ access mode, ¬Conflicted (exec (bind type access mode) world)) :
    ¬Conflicted (exec (ensureBoundBy bind type) world) := by
  intro conflicted
  rw [ensureBoundBy, exec_bind_of_ok (exec_context world)] at conflicted
  split at conflicted
  · exact binds _ _ (conflicted_discard conflicted)
  · exact Unhindered.pure _ world conflicted

/-- Handing out a value comes upon a conflict only where its run-time type cannot be bound. -/
theorem not_conflicted_pushBy {bind : Binder} {value : HostValue} (typed : world.store.typeOf? value = some type)
    (binds : ∀ access mode, ¬Conflicted (exec (bind type access mode) world)) :
    ¬Conflicted (exec (pushBy bind value) world) := by
  intro conflicted
  rw [pushBy] at conflicted
  split at conflicted
  · exact Unhindered.pure _ world conflicted
  · rw [exec_bind_of_ok (exec_store world), typed] at conflicted
    rcases conflicted_bind conflicted with early | ⟨_, after, -, late⟩
    · exact not_conflicted_ensureBoundBy binds early
    · rcases late with ⟨path, name, failed⟩
      cases failed

/-- Once such a type is open, its marker asks for the type of types, and nothing asks for another type. -/
theorem Undisputed.not_conflicted_furnish (undisputed : host.Undisputed among) (apart : host.NamesApart)
    (isAmong : among type) {bind : Binder} (others : host.BindsOthers (host.surveying known) bind type)
    (binds : ∀ {world : World}, world.context.Surveyed host known → ∀ access mode,
      ¬Conflicted (exec (bind .typeType access mode) world))
    (access : MemberAccess) (mode : BindingMode) (table : TableId) (surveyed : world.context.Surveyed host known) :
    ¬Conflicted (exec (host.furnish bind type access mode table) world) := by
  have installs : host.Installs (host.surveying known) type := (bindsItself_surveying apart type).toInstalls
  intro conflicted
  rw [furnish] at conflicted
  rcases conflicted_bind conflicted with atMembers | ⟨_, filled, filling, later⟩
  · exact Unhindered.installMembers (undisputed.noFields type isAmong) bind access mode world atMembers
  have surveyedFilled := (installs.installMembers others access mode).holds_of_ok surveyed filling
  rcases conflicted_bind later with atMarker | ⟨marker, marked, -, later⟩
  · exact not_conflicted_pushBy rfl (binds surveyedFilled) atMarker
  · refine Unhindered.bind (.modifyContext _) (fun _ => ?_) marked later
    rw [installEnumeration, definition, undisputed.noEnumeration type isAmong]
    refine .bind (.pure _) fun _ => .bind (.installConstructor host type) fun _ => .bind .context fun context => ?_
    rw [nestedToBind, definition, undisputed.noNested type isAmong]
    split
    · exact .pure _
    · exact .pure _

/-- Types that ask for no others are bound without a conflict, by induction on the depth. -/
theorem Undisputed.not_conflicted_bindWithin (undisputed : host.Undisputed among) (apart : host.NamesApart)
    (depth : Nat) (isAmong : among type) (access : MemberAccess) (mode : BindingMode) (surveyed : world.context.Surveyed host known) :
    ¬Conflicted (exec (host.bindWithin depth type access mode) world) := by
  induction depth generalizing type access mode world with
  | zero => exact Unhindered.throw (by decide) world
  | succ depth ih =>
      intro conflicted
      rw [bindWithin, exec_bind_of_ok (exec_context world)] at conflicted
      cases bound : world.context.binding? type with
      | some binding =>
          rw [bound] at conflicted
          exact Unhindered.pure _ world conflicted
      | none =>
          have others : host.BindsOthers (host.surveying known) (host.bindWithin depth) type :=
            .of_all (binds_bindWithin depth) (keptBy_bindWithin_surveying apart depth) type
          rw [bound] at conflicted
          dsimp only at conflicted
          rw [bindAnew_eq] at conflicted
          rcases conflicted_bind conflicted with atBase | ⟨_, based, basing, later⟩
          · rw [bindBase] at atBase
            split at atBase
            next base isBase =>
              exact ih (undisputed.base type base isAmong isBase) _ _ surveyed (conflicted_discard atBase)
            next => exact Unhindered.pure _ world atBase
          have surveyedBased := (others.bindBase access mode).holds_of_ok surveyed basing
          rcases conflicted_bind later with atOpening | ⟨table, opened, opening, later⟩
          · exact not_conflicted_openBinding apart (undisputed.sole type isAmong) surveyedBased mode atOpening
          have surveyedOpened := (bindsItself_surveying apart type).opened surveyedBased
            (opening ▸ host.opened_openBinding type mode based)
          rcases conflicted_bind later with furnishing | ⟨_, last, -, counting⟩
          · exact undisputed.not_conflicted_furnish apart isAmong others
              (fun surveyed access mode => ih undisputed.typeType access mode surveyed) access mode table surveyedOpened
              furnishing
          · exact (Unhindered.bind (.modifyContext _) fun _ => .pure _) last counting

end Host

end ScriptBridge
