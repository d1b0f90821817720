import ScriptBridge.Proofs.Steps.Step

/-!
# Binding in steps

Binding a type is a chain of binding steps, by induction on the depth that is
left: what binds one type has to be a chain of steps for every way to bind the
other types that is one.
-/

namespace ScriptBridge.Host

open Bridge

variable {host : Host} {bind : Binder} {ε : Type}

theorem binds_ensureBoundBy (binds : ∀ type access mode, host.Binds (bind type access mode))
    (type : TypeRef) : host.Binds (ensureBoundBy bind type) := by
  refine .bind .context fun context => ?_
  split
  · exact .discard (binds _ _ _)
  · exact .pure _

/-- Binding the run-time type of a value before representing it does not change the type. -/
theorem binds_pushBy (binds : ∀ type access mode, host.Binds (bind type access mode))
    (value : HostValue) : host.Binds (pushBy bind value) := by
  intro world
  rw [pushBy]
  cases simple : value.toScript? with
  | some result => exact .refl
  | none =>
      simp only [exec_bind, exec_store]
      cases typed : world.store.typeOf? value with
      | none => exact .refl
      | some type =>
          have bound := binds_ensureBoundBy binds type world
          simp only [exec_bind]
          cases run : exec (ensureBoundBy bind type) world with
          | mk result after =>
              rw [run] at bound
              cases result with
              | error error => exact bound
              | ok done =>
                  refine bound.tail ?_
                  exact .represent after value _ simple (by rw [store_eq_of_bindSteps bound, typed])

theorem binds_installMember (type : TypeRef) (access : MemberAccess) (mode : BindingMode)
    (member : CatalogMember) : host.Binds (host.installMember type access mode member) := by
  cases mode with
  | eager => exact .bind (binds_count _) fun _ => .bind (binds_register _) fun _ => .pure _
  | «lazy» => exact .bind (binds_register _) fun _ => .pure _

theorem binds_installConstants (binds : ∀ type access mode, host.Binds (bind type access mode))
    (table : TableId) (constants : List (String × HostValue)) :
    host.Binds (installConstants bind table constants) :=
  .forM constants fun constant =>
    .bind (binds_pushBy binds constant.2) fun _ => binds_writeEntry _ _ _

theorem binds_installItems (type : TypeRef) (indexers : List PropertyDef) :
    host.Binds (installItems type indexers) := by
  rw [installItems]
  split
  · exact .pure _
  · exact .bind (binds_register _) fun _ => .bind (binds_register _) fun _ => .pure _

theorem binds_installMembers (binds : ∀ type access mode, host.Binds (bind type access mode))
    (type : TypeRef) (access : MemberAccess) (mode : BindingMode) :
    host.Binds (host.installMembers bind type access mode) := by
  refine .bind .context fun context => ?_
  split
  · exact .throw _
  · refine .bind binds_extensionMap fun extensions => .bind .store fun store => ?_
    refine .bind (binds_installConstants binds _ _) fun _ => ?_
    refine .bind (.mapM _ fun member => binds_installMember type access mode member) fun slots => ?_
    refine .bind (.mapM _ fun entry => .bind (binds_register _) fun _ => .pure _) fun operators => ?_
    refine .bind (binds_installItems _ _) fun items => .bind .context fun context => ?_
    split
    · exact .throw _
    · exact binds_rebind type _

theorem binds_installEnumeration (binds : ∀ type access mode, host.Binds (bind type access mode))
    (type : TypeRef) (table : TableId) : host.Binds (host.installEnumeration bind type table) := by
  rw [installEnumeration]
  split
  · refine .bind (.forM _ fun member => ?_) fun _ => ?_
    · exact .bind (binds_pushBy binds _) fun _ => binds_writeEntry _ _ _
    · exact .bind (binds_register _) fun _ => binds_writeEntry _ _ _
  · exact .pure _

theorem binds_installConstructor (type : TypeRef) : host.Binds (host.installConstructor type) := by
  rw [installConstructor]
  split
  · exact .pure _
  · refine .bind (binds_register _) fun handle => .bind .context fun context => ?_
    split
    · exact .throw _
    · exact binds_rebind type _

theorem binds_openBinding (type : TypeRef) (mode : BindingMode) :
    host.Binds (host.openBinding type mode) := by
  intro world
  simp only [openBinding, exec_bind, exec_context, exec_ofExcept]
  cases placed : world.context.namespaces.place host.system world.context.heap type with
  | error error => exact .refl
  | ok result =>
      rcases result with ⟨table, namespaces, heap⟩
      exact .single (.place world type mode table namespaces heap placed)

theorem binds_bindBase (binds : ∀ type access mode, host.Binds (bind type access mode))
    (type : TypeRef) (access : MemberAccess) (mode : BindingMode) :
    host.Binds (host.bindBase bind type access mode) := by
  rw [bindBase]
  split
  · exact .discard (binds _ _ _)
  · exact .pure _

theorem binds_bindNested (binds : ∀ type access mode, host.Binds (bind type access mode))
    (type : TypeRef) (access : MemberAccess) (mode : BindingMode) :
    host.Binds (host.bindNested bind type access mode) := by
  refine .bind .context fun context => ?_
  split
  · exact .forM _ fun nested => .discard (binds _ _ _)
  · exact .pure _

/-- The rest of binding a type whose table and bare binding are there. -/
def furnish (host : Host) (bind : Binder) (type : TypeRef) (access : MemberAccess) (mode : BindingMode)
    (table : TableId) : Bridge BindError Unit := do
  host.installMembers bind type access mode
  let marker ← pushBy bind (.type type)
  Bridge.writeEntry table "UnderlyingSystemType" marker
  host.installEnumeration bind type table
  host.installConstructor type
  host.bindNested bind type access mode

theorem bindAnew_eq (host : Host) (bind : Binder) (type : TypeRef) (access : MemberAccess)
    (mode : BindingMode) :
    host.bindAnew bind type access mode = (do
      host.bindBase bind type access mode
      let table ← host.openBinding type mode
      host.furnish bind type access mode table
      Bridge.count .countType
      return table) := by
  simp only [bindAnew, furnish, bind_assoc]

theorem binds_furnish (binds : ∀ type access mode, host.Binds (bind type access mode))
    (type : TypeRef) (access : MemberAccess) (mode : BindingMode) (table : TableId) :
    host.Binds (host.furnish bind type access mode table) := by
  refine .bind (binds_installMembers binds _ _ _) fun _ => .bind (binds_pushBy binds _) fun marker => ?_
  refine .bind (binds_writeEntry _ _ _) fun _ => .bind (binds_installEnumeration binds _ _) fun _ => ?_
  exact .bind (binds_installConstructor _) fun _ => binds_bindNested binds _ _ _

theorem binds_bindAnew (binds : ∀ type access mode, host.Binds (bind type access mode))
    (type : TypeRef) (access : MemberAccess) (mode : BindingMode) :
    host.Binds (host.bindAnew bind type access mode) := by
  rw [bindAnew_eq]
  refine .bind (binds_bindBase binds _ _ _) fun _ => .bind (binds_openBinding _ _) fun table => ?_
  exact .bind (binds_furnish binds _ _ _ _) fun _ => .bind (binds_count _) fun _ => .pure _

theorem binds_bindWithin (depth : Nat) (type : TypeRef) (access : MemberAccess) (mode : BindingMode) :
    host.Binds (host.bindWithin depth type access mode) := by
  induction depth generalizing type access mode with
  | zero => exact .throw _
  | succ depth ih =>
      refine .bind .context fun context => ?_
      split
      · exact .pure _
      · exact binds_bindAnew ih _ _ _

theorem binds_bindWith (type : TypeRef) (access : MemberAccess) (mode : BindingMode) :
    host.Binds (host.bindWith type access mode) :=
  binds_bindWithin _ type access mode

theorem binds_showHiddenWithin (depth : Nat) (type : TypeRef) :
    host.Binds (host.showHiddenWithin depth type) := by
  induction depth generalizing type with
  | zero => exact .throw _
  | succ depth ih =>
      refine .bind .context fun context => ?_
      split
      · exact .throw _
      · split
        · exact .pure _
        · refine .bind (binds_installMembers binds_bindWith _ _ _) fun _ => ?_
          refine .bind (binds_rebind type _) fun _ => .forM _ fun nested => ?_
          exact .bind .context fun _ => .bind (.discard (binds_bindWith _ _ _)) fun _ => ih nested

theorem binds_showHidden (type : TypeRef) : host.Binds (host.showHidden type) :=
  binds_showHiddenWithin _ type

end ScriptBridge.Host
