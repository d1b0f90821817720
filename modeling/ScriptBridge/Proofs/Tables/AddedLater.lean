import ScriptBridge.Proofs.Tables.Continuing
import ScriptBridge.Proofs.Tables.Conventions

/-!
# Hidden members added later

Binding a type whose members are made with it puts the members of its catalog into
its tables, and showing its hidden members writes theirs over them. So the tables have
at every place what the members of all visibilities have there.
-/

namespace ScriptBridge

/-- What a type has at a place of its tables: whether the callable is made, and the callable. -/
def Context.entry? (context : Context) (type : TypeRef) (place : MemberTable × String) :
    Option (Bool × Option Callable) :=
  (context.binding? type).bind fun binding =>
    (binding.slots.get? place).map fun slot => (slot.isBound, context.callable? slot.handle)

def Context.operatorEntry? (context : Context) (type : TypeRef) (operator : Operator) : Option (Option Callable) :=
  (context.binding? type).bind fun binding => (binding.operators.get? operator).map context.callable?

/-- The tables of a type have what a catalog lists and nothing else. -/
structure Host.Shows (host : Host) (context : Context) (type : TypeRef) (catalog : Catalog) : Prop where
  entries : ∀ place, context.entry? type place =
    (catalog.serving? place).map fun member => (true, some (.ofMember host.system type member))
  operators : ∀ operator, context.operatorEntry? type operator =
    (catalog.operators.get? operator).map fun methods => some (.ofOperator host.system type operator methods)

namespace Catalog

variable {system : TypeSystem} {type : TypeRef}

/-- The members of a catalog with their places. -/
def placed (catalog : Catalog) : List ((MemberTable × String) × CatalogMember) :=
  catalog.members.map fun member => (member.place, member)

theorem get?_insertAll_placed (members : FinMap (MemberTable × String) CatalogMember) (catalog : Catalog)
    (place : MemberTable × String) :
    (members.insertAll catalog.placed).get? place = (catalog.serving? place).or (members.get? place) := by
  rw [FinMap.get?_insertAll, placed, List.filter_map, List.getLast?_map, Option.map_map, serving?]
  congr 1
  exact Option.map_id'

theorem nodup_operators (access : MemberAccess) (extensions : Option ExtensionMap) :
    (ofType system type access extensions).operators.keys.Nodup := by
  refine List.foldlRecOn (motive := fun operators : FinMap Operator (List Method) => operators.keys.Nodup) _ _
    List.nodup_nil fun operators distinct entry _ => ?_
  cases Operator.ofMethodName? entry.1.1 with
  | none => exact distinct
  | some operator => exact FinMap.nodup_keys_insert distinct _ _

end Catalog

namespace Host

open Bridge

variable {host : Host} {type other : TypeRef} {access : MemberAccess} {callables more : Array Callable}
  {members : FinMap (MemberTable × String) CatalogMember} {operators : FinMap Operator (List Method)}
  {binding : TypeBinding} {good : TypeBinding → Prop} {world after : World} {table : TableId} {depth : Nat}

/-- The slots and the operators of a binding are made for members and methods, place by place. -/
structure Serves (host : Host) (type : TypeRef) (callables : Array Callable)
    (members : FinMap (MemberTable × String) CatalogMember) (operators : FinMap Operator (List Method))
    (binding : TypeBinding) : Prop where
  slots : ∀ place, Option.Rel (fun slot member =>
      slot.isBound = true ∧ Registered callables slot.handle (.ofMember host.system type member))
    (binding.slots.get? place) (members.get? place)
  operators : ∀ operator, Option.Rel (fun handle methods =>
      Registered callables handle (.ofOperator host.system type operator methods))
    (binding.operators.get? operator) (operators.get? operator)

namespace Serves

theorem bare (callables : Array Callable) (mode : BindingMode) (table : TableId) :
    host.Serves type callables .empty .empty (.bare host.system type mode table) where
  slots _ := .none
  operators _ := .none

theorem mono (serves : host.Serves type callables members operators binding) (kept : KeepsCallables callables more) :
    host.Serves type more members operators binding where
  slots place := FinMap.rel_imp (serves.slots place) fun _ _ made => ⟨made.1, kept _ _ made.2⟩
  operators operator := FinMap.rel_imp (serves.operators operator) fun _ _ made => kept _ _ made

/-- What is made for a catalog is written over what was there. -/
theorem fill {catalog : Catalog} {filling : Filling} (serves : host.Serves type callables members operators binding)
    (makes : host.Makes type access .eager catalog filling callables) :
    host.Serves type callables (members.insertAll catalog.placed) (operators.insertAll catalog.operators.entries)
      (binding.fill filling) where
  slots place := by
    refine FinMap.rel_insertAll ?_ serves.slots place
    rw [Catalog.placed, List.forall₂_map_right_iff]
    exact makes.slots.flip.imp fun _ _ made => ⟨made.1, made.2.1, made.2.2⟩
  operators operator := by
    refine FinMap.rel_insertAll ?_ serves.operators operator
    exact makes.operators.flip.imp fun _ _ made => made

/-- Tables that serve members place by place show a catalog that has these members. -/
theorem shows {context : Context} {catalog : Catalog} (serves : host.Serves type context.callables members operators
      binding) (bound : context.binding? type = some binding)
    (places : ∀ place, members.get? place = catalog.serving? place)
    (methods : ∀ operator, operators.get? operator = catalog.operators.get? operator) :
    host.Shows context type catalog where
  entries place := by
    rw [Context.entry?, bound, Option.bind_some, ← places]
    refine FinMap.map_eq_of_rel (FinMap.rel_imp (serves.slots place) fun slot member made => ?_)
    rw [made.1, Context.callable?, made.2]
  operators operator := by
    rw [Context.operatorEntry?, bound, Option.bind_some, ← methods]
    exact FinMap.map_eq_of_rel (serves.operators operator)

end Serves

/-! ## Binding keeps what was installed -/

theorem keptBy_pushBy_boundAs (depth : Nat) (value : HostValue) :
    (Invariant.boundAs type good).KeptBy (pushBy (host.bindWithin depth) value) := fun _ holds =>
  arrives_pushBy (binds_bindWithin depth) holds (fun _ => keptBy_bindWithin_boundAs depth _) fun _ _ _ _ => id

theorem keptBy_installEnumeration_boundAs (depth : Nat) (table : TableId) :
    (Invariant.boundAs type good).KeptBy (host.installEnumeration (host.bindWithin depth) other table) := by
  rw [installEnumeration]
  split
  · refine .bind (.forM _ fun member _ => .bind (keptBy_pushBy_boundAs depth _) fun _ => ?_) fun _ => ?_
    · exact .modifyContext fun _ => id
    · exact .bind (keptBy_register id) fun _ => .modifyContext fun _ => id
  · exact .pure _

theorem keptBy_installConstructor_boundAs
    (constructs : ∀ binding handle, good binding → good { binding with constructor := some handle }) :
    (Invariant.boundAs type good).KeptBy (host.installConstructor other) := by
  intro world holds
  have constructed := host.constructed_installConstructor other world
  left
  revert constructed
  generalize exec (host.installConstructor other) world = run
  intro constructed
  cases constructed with
  | absent => exact holds
  | failed registered => exact boundAs_of_bindings_eq registered.bindings_eq holds
  | constructed registered =>
      exact boundAs_modifyBinding (boundAs_of_bindings_eq registered.bindings_eq holds) fun _ binding _ =>
        constructs binding _

theorem keptBy_bindNested_boundAs (depth : Nat) (access : MemberAccess) (mode : BindingMode) :
    (Invariant.boundAs type good).KeptBy (host.bindNested (host.bindWithin depth) other access mode) := by
  refine .bind .context fun context => ?_
  split
  · exact .forM _ fun nested _ => .discard (keptBy_bindWithin_boundAs depth _ _ _)
  · exact .pure _

/-- The rest of furnishing a type whose members are installed. -/
def finish (host : Host) (bind : Binder) (type : TypeRef) (access : MemberAccess) (mode : BindingMode)
    (table : TableId) : Bridge BindError Unit := do
  let marker ← pushBy bind (.type type)
  Bridge.writeEntry table "UnderlyingSystemType" marker
  host.installEnumeration bind type table
  host.installConstructor type
  host.bindNested bind type access mode

theorem binds_finish (depth : Nat) (type : TypeRef) (access : MemberAccess) (mode : BindingMode) (table : TableId) :
    host.Binds (host.finish (host.bindWithin depth) type access mode table) := by
  have binds := @binds_bindWithin host depth
  refine .bind (binds_pushBy binds _) fun marker => .bind (binds_writeEntry _ _ _) fun _ => ?_
  refine .bind (binds_installEnumeration binds _ _) fun _ => .bind (binds_installConstructor _) fun _ => ?_
  exact binds_bindNested binds _ _ _

/-- The rest leaves the members of the type alone. -/
theorem keptBy_finish_boundAs
    (constructs : ∀ binding handle, good binding → good { binding with constructor := some handle }) (depth : Nat)
    (access : MemberAccess) (mode : BindingMode) (table : TableId) :
    (Invariant.boundAs type good).KeptBy (host.finish (host.bindWithin depth) other access mode table) := by
  refine .bind (keptBy_pushBy_boundAs depth _) fun marker => .bind (.modifyContext fun _ => id) fun _ => ?_
  refine .bind (keptBy_installEnumeration_boundAs depth table) fun _ => ?_
  exact .bind (keptBy_installConstructor_boundAs constructs) fun _ => keptBy_bindNested_boundAs depth access mode

/-- When a type that was not bound has been bound, its binding is what was made for its catalog, and a constructor. -/
theorem filled_of_bindWithin {mode : BindingMode} (unbound : world.context.isBound type = false)
    (run : exec (host.bindWithin depth type access mode) world = (.ok table, after)) :
    ∃ filling binding, after.context.binding? type = some binding ∧
      binding = { (TypeBinding.bare host.system type mode table).fill filling with constructor := binding.constructor } ∧
      host.Makes type access mode (.ofType host.system type access (host.extensionsIn world.context)) filling
        after.context.callables := by
  rcases exec_bindWithin_eq_ok run with
    ⟨binding, bound, -⟩ | ⟨-, depth, based, opened, furnished, rfl, basing, opening, furnishing, rfl⟩
  · rw [Context.isBound, bound] at unbound
    cases unbound
  · have started := ((binds_bindBase (binds_bindWithin depth) type access mode).chain basing).trans
      ((binds_openBinding type mode).chain opening)
    have openedHere := opening ▸ host.opened_openBinding type mode based
    have bare : (Invariant.boundAs type (· = .bare host.system type mode table)).holds opened := by
      cases openedHere with
      | opened placed => exact ⟨_, FinMap.get?_insert_self _ _ _, rfl⟩
    rcases exec_bind_eq_ok furnishing with ⟨_, installed, installing, finishing⟩
    rcases boundAs_installMembers bare installing with ⟨filling, ⟨_, bound, rfl⟩, makes⟩
    rw [extensionsIn_eq_of_bindSteps started] at makes
    -- From here on the binding changes only in its constructor.
    let filled (binding : TypeBinding) : Prop :=
      binding = { (TypeBinding.bare host.system type mode table).fill filling with constructor := binding.constructor }
    have keeps : (Invariant.boundAs type filled).KeptBy (host.finish (host.bindWithin depth) type access mode table) := by
      refine keptBy_finish_boundAs (fun binding handle holds => ?_) depth access mode table
      exact congrArg (fun binding : TypeBinding => { binding with constructor := some handle }) holds
    rcases keeps.holds_of_ok ⟨_, bound, rfl⟩ finishing with ⟨last, boundLast, same⟩
    have kept := keepsCallables_of_steps ((binds_finish depth type access mode table).steps.chain finishing)
    exact ⟨filling, last, boundLast, same, makes.mono kept⟩

/-- When a type that was not bound has been bound with its members, its tables serve the members of its catalog. -/
theorem serves_of_bindWithin (unbound : world.context.isBound type = false)
    (run : exec (host.bindWithin depth type access .eager) world = (.ok table, after)) :
    let catalog := Catalog.ofType host.system type access (host.extensionsIn world.context)
    ∃ binding, after.context.binding? type = some binding ∧ binding.mode = .eager ∧ binding.showsHidden = false ∧
      host.Serves type after.context.callables (.ofList catalog.placed)
        (FinMap.empty.insertAll catalog.operators.entries) binding := by
  intro catalog
  rcases filled_of_bindWithin unbound run with ⟨filling, binding, bound, same, makes⟩
  have serves := (Serves.bare after.context.callables .eager table).fill makes
  refine ⟨binding, bound, ?_, ?_, ?_⟩
  · rw [same]
    rfl
  · rw [same]
    rfl
  · rw [same]
    exact ⟨serves.slots, serves.operators⟩

/-- A type that is bound with its members shows the catalog of its members. -/
theorem shows_of_bindWith (unbound : world.context.isBound type = false)
    (run : exec (host.bindWith type access .eager) world = (.ok table, after)) :
    host.Shows after.context type (.ofType host.system type access (host.extensionsIn world.context)) := by
  rcases serves_of_bindWithin unbound run with ⟨binding, bound, -, -, serves⟩
  refine serves.shows bound (fun place => ?_) fun operator => ?_
  · rw [FinMap.ofList, Catalog.get?_insertAll_placed, FinMap.get?_empty, Option.or_none]
  · rw [FinMap.get?_insertAll_entries _ (Catalog.nodup_operators _ _), FinMap.get?_empty, Option.or_none]

/-- When visible members are bound and hidden ones are added later, the type shows the catalog of all. -/
theorem shows_of_showHidden {shown : World}
    (conventional : Catalog.Conventional host.system type (host.extensionsIn world.context))
    (unbound : world.context.isBound type = false)
    (run : exec (host.bindWith type .visibleOnly .eager) world = (.ok table, after))
    (showing : exec (host.showHidden type) after = (.ok (), shown)) :
    host.Shows shown.context type (.ofType host.system type .all (host.extensionsIn world.context)) := by
  rcases serves_of_bindWithin unbound run with ⟨binding, bound, eager, hides, serves⟩
  rcases binding?_of_showHiddenWithin bound hides showing with ⟨filling, boundShown, makes⟩
  rw [eager, extensionsIn_eq_of_bindSteps ((binds_bindWith type .visibleOnly .eager).chain run)] at makes
  have kept := keepsCallables_of_steps ((binds_showHidden type).steps.chain showing)
  have filled := (serves.mono kept).fill makes
  have last : host.Serves type shown.context.callables _ _ { binding.fill filling with showsHidden := true } :=
    ⟨filled.slots, filled.operators⟩
  refine last.shows boundShown (fun place => ?_) fun operator => ?_
  · rw [Catalog.get?_insertAll_placed, FinMap.ofList, Catalog.get?_insertAll_placed, FinMap.get?_empty,
      Option.or_none, Catalog.serving?_addedLater conventional]
  · rw [FinMap.get?_insertAll_entries _ (Catalog.nodup_operators _ _),
      FinMap.get?_insertAll_entries _ (Catalog.nodup_operators _ _), FinMap.get?_empty, Option.or_none,
      Catalog.operators_addedLater]

end Host

end ScriptBridge
