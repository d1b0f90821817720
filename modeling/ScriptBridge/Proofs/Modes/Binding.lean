import ScriptBridge.Proofs.Modes.Basic

/-!
# Binding in both modes

Binding a type in one context with all its members and in the other one with
placeholders keeps the worlds in agreement, by induction on the depth that is
left. The placeholder of each member promises the callable that the member gets
in the first context, because the catalog finds the member again.
-/

namespace ScriptBridge

theorem Config.onDemand_bindsNested (config : Config) :
    config.onDemand.bindsNested = config.bindsNested := rfl

namespace Comparison

open Bridge

variable {c : Comparison} {inProgress : Option TypeRef} {before : World × World} {ε α β : Type}

/-- A way to bind types does the same in both modes. -/
def BindsAlike (c : Comparison) (bind : Binder) : Prop :=
  ∀ type before, c.Agree before.1 before.2 →
    c.Simulates none before (bind type c.config.access .eager) (bind type c.config.access .lazy) Equal

theorem toScript?_of_plain {value : HostValue} (plain : value.Plain) {simple : ScriptValue}
    (given : value.toScript? = some simple) (rename : Equiv.Perm CacheTag) :
    simple.asFunction? = none ∧ simple = simple.retag rename := by
  cases value with
  | delegate delegate => cases plain.asDelegate?_eq_none
  | object reference => cases given
  | copied copy => cases given
  | enumeration type number => cases given
  | type type => cases given
  | _ =>
      rcases Option.some.inj given with rfl
      exact ⟨rfl, rfl⟩

theorem simulates_ensureBoundBy {bind : Binder} (binds : c.BindsAlike bind) (type : TypeRef)
    (agree : c.Agree before.1 before.2) :
    c.Simulates none before (Host.ensureBoundBy bind type) (Host.ensureBoundBy bind type) Equal := by
  apply Simulates.context
  rw [agree.isBound_eq, agree.config, agree.otherConfig, c.isEager]
  split
  · exact (binds type before agree).discard
  · exact .pure agree rfl

/-- A plain value gets a value that is no function. -/
theorem simulates_pushBy {bind : Binder} (binds : c.BindsAlike bind) {value : HostValue} (plain : value.Plain)
    (agree : c.Agree before.1 before.2) :
    c.Simulates none before (Host.pushBy bind value) (Host.pushBy bind value) c.SameData := by
  simp only [Host.pushBy]
  cases given : value.toScript? with
  | some simple => exact .pure agree (toScript?_of_plain plain given c.rename)
  | none =>
      apply Simulates.store agree
      cases before.1.store.typeOf? value with
      | none => exact .throw agree _
      | some type =>
          apply (simulates_ensureBoundBy binds type agree).bind
          intro _ _ after agree _ _
          apply (simulates_represent agree plain _).bind
          intro proxy _ last agree _ renamed
          exact .pure agree ⟨rfl, congrArg ScriptValue.proxy renamed⟩

/-- The placeholder of a member promises the callable of the member. -/
theorem callableOf?_of_mem {type : TypeRef} {member : CatalogMember}
    (present : member ∈
      (Catalog.ofType c.host.system type c.config.access (c.host.mergedExtensions c.config)).members) :
    c.callableOf? ⟨type, member.kind, member.name, member.isStatic, c.config.access⟩ =
      some (.ofMember c.host.system type member) := by
  have found := (c.unambiguous_catalog type).find?_eq present
  rw [Host.catalog] at found
  rw [callableOf?, found, Option.map_some]

theorem simulates_installMember {type : TypeRef} {member : CatalogMember}
    (present : member ∈ (c.host.catalog c.config type).members)
    (agree : c.Agree before.1 before.2) :
    c.Simulates inProgress before (c.host.installMember type c.config.access .eager member)
      (c.host.installMember type c.config.access .lazy member)
      fun left right slot other => slot.1 = other.1 ∧
        c.SlotsAgree left.context.callables right.context.callables type slot.1 slot.2 other.2 := by
  simp only [Host.installMember]
  refine .after_left rfl (.of_same _ rfl rfl rfl) ?_
  have counted : c.Agree { before.1 with context := { before.1.context with
      counters := before.1.context.counters.countMember } } before.2 := { agree with }
  apply (@simulates_register c _ (_, before.2) counted _ _).bind
  intro handle other after agree _ registered
  refine .pure agree ⟨rfl, ?_⟩
  exact .pending registered.1 registered.2 rfl rfl (callableOf?_of_mem present)

theorem simulates_installAll (type : TypeRef) (agree : c.Agree before.1 before.2) :
    c.Simulates inProgress before
      ((c.host.catalog c.config type).members.mapM (c.host.installMember type c.config.access .eager))
      ((c.host.catalog c.config type).members.mapM (c.host.installMember type c.config.access .lazy))
      fun left right => List.Forall₂ fun slot other => slot.1 = other.1 ∧
        c.SlotsAgree left.context.callables right.context.callables type slot.1 slot.2 other.2 := by
  have pairs : List.Forall₂ (fun member other => other = member ∧ member ∈ (c.host.catalog c.config type).members)
      (c.host.catalog c.config type).members (c.host.catalog c.config type).members :=
    List.forall₂_same.mpr fun member present => ⟨rfl, present⟩
  refine .mapM pairs agree ?_ ?_
  · rintro _ member after ⟨rfl, present⟩ agree
    exact simulates_installMember present agree
  · intro earlier later slot other advances same
    exact ⟨same.1, same.2.keep advances.left advances.right⟩

theorem simulates_installConstants {bind : Binder} (binds : c.BindsAlike bind) (table : TableId)
    {constants : List (String × HostValue)} (plain : ∀ constant ∈ constants, constant.2.Plain)
    (agree : c.Agree before.1 before.2) :
    c.Simulates none before (Host.installConstants bind table constants)
      (Host.installConstants bind table constants) Equal := by
  have pairs : List.Forall₂ (fun constant other => other = constant ∧ constant.2.Plain) constants constants :=
    List.forall₂_same.mpr fun constant member => ⟨rfl, plain constant member⟩
  simp only [Host.installConstants]
  apply Simulates.forM pairs agree
  rintro _ constant after ⟨rfl, constantPlain⟩ agree
  apply (simulates_pushBy binds constantPlain agree).bind
  intro value _ last agree _ same
  rcases same with ⟨noFunction, rfl⟩
  exact simulates_writeEntry agree table constant.1 (.data value noFunction)

/-- The same generated callable is registered in both contexts. -/
theorem simulates_registerSame {callable : Callable} (generated : callable.isGenerated = true)
    (agree : c.Agree before.1 before.2) :
    c.Simulates inProgress before (Bridge.register callable) (Bridge.register callable)
      fun left right => SameCallable left.context.callables right.context.callables :=
  (simulates_register agree callable callable).mono fun _ _ _ _ _ registered =>
    ⟨callable, generated, registered.1, registered.2⟩

theorem simulates_installItems (type : TypeRef) (indexers : List PropertyDef)
    (agree : c.Agree before.1 before.2) :
    c.Simulates inProgress before (Host.installItems type indexers) (Host.installItems type indexers)
      fun left right => Option.Rel fun items others =>
        SameCallable left.context.callables right.context.callables items.1 others.1 ∧
          SameCallable left.context.callables right.context.callables items.2 others.2 := by
  simp only [Host.installItems]
  split
  · exact .pure agree .none
  · apply (simulates_registerSame rfl agree).bind
    intro getter otherGetter after agree _ sameGetter
    apply (simulates_registerSame rfl agree).bind
    intro setter otherSetter last agree advances sameSetter
    exact .pure agree (.some ⟨sameGetter.keep advances.left advances.right, sameSetter⟩)

theorem simulates_registerOperators (type : TypeRef) (operators : List (Operator × List Method))
    (agree : c.Agree before.1 before.2) :
    c.Simulates inProgress before
      (operators.mapM fun entry => do
        return (entry.1, ← Bridge.register (.ofOperator c.host.system type entry.1 entry.2)))
      (operators.mapM fun entry => do
        return (entry.1, ← Bridge.register (.ofOperator c.host.system type entry.1 entry.2)))
      fun left right => List.Forall₂ fun entry other => entry.1 = other.1 ∧
        SameCallable left.context.callables right.context.callables entry.2 other.2 := by
  have pairs : List.Forall₂ Eq operators operators := List.forall₂_refl operators
  refine .mapM pairs agree ?_ ?_
  · rintro entry _ after rfl agree
    apply (simulates_registerSame rfl agree).bind
    intro handle other last agree _ same
    exact .pure agree ⟨rfl, same⟩
  · intro earlier later entry other advances same
    exact ⟨same.1, same.2.keep advances.left advances.right⟩

theorem Agree.modifyBinding {left right : World} (agree : c.Agree left right) (type : TypeRef)
    {change otherChange : TypeBinding → TypeBinding}
    (changed : ∀ binding other,
      c.BindingsAgree left.context.callables right.context.callables type binding other →
      c.BindingsAgree left.context.callables right.context.callables type (change binding)
        (otherChange other)) :
    c.Agree { left with context := left.context.modifyBinding type change }
      { right with context := right.context.modifyBinding type otherChange } := by
  simp only [Context.modifyBinding]
  rcases agree.binding?_cases type with ⟨absent, otherAbsent⟩ | ⟨binding, other, found, otherFound, bindings⟩
  · rw [absent, otherAbsent]
    exact agree
  · rw [found, otherFound]
    exact { agree with bindings := agree.bindings.insert (changed binding other bindings) }

/-- Changing the binding of a type loses nothing but slots of the type. -/
theorem Advances.modifyBinding (type : TypeRef) (change otherChange : TypeBinding → TypeBinding) :
    c.Advances (some type) before
      ({ before.1 with context := before.1.context.modifyBinding type change },
        { before.2 with context := before.2.context.modifyBinding type otherChange }) := by
  refine ⟨?_, ?_, fun other binding different bound => ⟨binding, ?_, fun _ _ slot present =>
    ⟨slot, present, Or.inl rfl⟩⟩⟩
  · dsimp only
    rw [Context.callables_modifyBinding]
    exact fun _ _ => id
  · dsimp only
    rw [Context.callables_modifyBinding]
    exact fun _ _ => id
  · dsimp only
    rw [Context.binding?_modifyBinding_of_ne _ _ fun same => different (congrArg some same)]
    exact bound

theorem simulates_modifyBinding (agree : c.Agree before.1 before.2) (type : TypeRef)
    {change otherChange : TypeBinding → TypeBinding}
    (changed : ∀ binding other,
      c.BindingsAgree before.1.context.callables before.2.context.callables type binding other →
      c.BindingsAgree before.1.context.callables before.2.context.callables type (change binding)
        (otherChange other)) :
    c.Simulates (some type) before
      (Bridge.modifyContext fun context => context.modifyBinding type change : Bridge ε Unit)
      (Bridge.modifyContext fun context => context.modifyBinding type otherChange) Equal :=
  Or.inr ⟨agree.modifyBinding type changed, .modifyBinding type change otherChange, .ok rfl⟩

theorem rel_or {left right : Array Callable} {first otherFirst second otherSecond : Option CallableHandle}
    (same : Option.Rel (SameCallable left right) first otherFirst)
    (sameSecond : Option.Rel (SameCallable left right) second otherSecond) :
    Option.Rel (SameCallable left right) (first.or second) (otherFirst.or otherSecond) := by
  cases same with
  | none => exact sameSecond
  | some same => exact .some same

/-- The constants of a type are plain, in the store or at their initial values. -/
theorem plain_of_constants (c : Comparison) {store : HostStore} (plainStore : store.Plain) (type : TypeRef)
    (access : MemberAccess) (extensions : Option ExtensionMap) :
    ∀ constant ∈ (Catalog.ofType c.host.system type access extensions).constants.map fun constant =>
      (constant.1, Host.constantValue store constant.2), constant.2.Plain := by
  intro constant present
  rcases List.mem_map.mp present with ⟨⟨name, field⟩, listed, rfl⟩
  rcases List.mem_map.mp (List.mem_filter.mp listed).1 with ⟨taken, taking, same⟩
  rcases Prod.mk.inj same with ⟨-, rfl⟩
  rcases List.mem_map.mp (List.mem_filter.mp taking).1 with ⟨definition, declared, rfl⟩
  dsimp only [Host.constantValue]
  cases read : store.readField? ⟨type, definition⟩ none with
  | none => exact c.plainTypes type definition declared
  | some value =>
      have noTarget : ∀ receiver : HostValue, none = some receiver → receiver.Plain := by simp
      exact plainStore.readField? noTarget read

/-- Every member gets its callable in the first context and its placeholder in the second. -/
theorem simulates_installMembers {bind : Binder} (binds : c.BindsAlike bind) (type : TypeRef)
    (agree : c.Agree before.1 before.2) :
    c.Simulates (some type) before (c.host.installMembers bind type c.config.access .eager)
      (c.host.installMembers bind type c.config.access .lazy) Equal := by
  unfold Host.installMembers
  apply Simulates.context
  rw [agree.namespaces]
  split
  next => exact .throw agree _
  next table _ =>
    apply (simulates_extensionMap agree).bind
    intro _ _ known agree _ same
    rcases same with ⟨rfl, rfl⟩
    apply Simulates.store agree
    have constants := plain_of_constants c agree.plainStore type c.config.access
      (c.host.mergedExtensions c.config)
    apply ((simulates_installConstants binds table constants agree).weaken _).bind
    intro _ _ filled agree _ _
    apply (simulates_installAll type agree).bind
    intro slots otherSlots placed agree _ sameSlots
    apply (simulates_registerOperators type _ agree).bind
    intro operators otherOperators operated agree advancesOperators sameOperators
    apply (simulates_installItems type _ agree).bind
    intro items otherItems after agree advancesItems sameItems
    apply Simulates.context
    rw [agree.isBound_eq]
    dsimp only
    split
    · exact .throw agree _
    · apply simulates_modifyBinding agree type
      intro binding other bindings
      have advances := advancesOperators.trans advancesItems
      have getters : Option.Rel (SameCallable after.1.context.callables after.2.context.callables)
          (items.map Prod.fst) (otherItems.map Prod.fst) := by
        cases sameItems with
        | none => exact .none
        | some same => exact .some same.1
      have setters : Option.Rel (SameCallable after.1.context.callables after.2.context.callables)
          (items.map Prod.snd) (otherItems.map Prod.snd) := by
        cases sameItems with
        | none => exact .none
        | some same => exact .some same.2
      refine { bindings with
        slots := ?_, operators := ?_, itemGetter := rel_or getters bindings.itemGetter,
        itemSetter := rel_or setters bindings.itemSetter }
      · exact bindings.slots.insertAll (sameSlots.imp fun _ _ same =>
          ⟨same.1, same.2.keep advances.left advances.right⟩)
      · exact bindings.operators.insertAll (sameOperators.imp fun _ _ same =>
          ⟨same.1, same.2.keep advancesItems.left advancesItems.right⟩)

/-- The members of an enumeration and the cast to it are put into the table of the type. -/
theorem simulates_installEnumeration {bind : Binder} (binds : c.BindsAlike bind) (type : TypeRef)
    (table : TableId)
    (agree : c.Agree before.1 before.2) :
    c.Simulates none before (c.host.installEnumeration bind type table)
      (c.host.installEnumeration bind type table) Equal := by
  simp only [Host.installEnumeration]
  split
  · have pairs : List.Forall₂ Eq (c.host.definition type).enumMembers (c.host.definition type).enumMembers :=
      List.forall₂_refl _
    refine (Simulates.forM pairs agree ?_).bind fun _ _ after agree _ _ => ?_
    · rintro member _ after rfl agree
      have plain : (HostValue.enumeration type member.2).Plain := .simple _ rfl rfl
      apply (simulates_pushBy binds plain agree).bind
      intro value _ last agree _ same
      rcases same with ⟨noFunction, rfl⟩
      exact simulates_writeEntry agree table member.1 (.data value noFunction)
    · apply (simulates_registerSame rfl agree).bind
      intro cast other last agree _ same
      exact simulates_writeEntry agree table "__CastFrom" (.function same)
  · exact .pure agree rfl

theorem simulates_installConstructor (type : TypeRef) (agree : c.Agree before.1 before.2) :
    c.Simulates (some type) before (c.host.installConstructor type)
      (c.host.installConstructor type) Equal := by
  simp only [Host.installConstructor]
  split
  next => exact .pure agree rfl
  next callable given =>
    have generated : callable.isGenerated = true := by
      simp only [Host.constructorCallable?] at given
      split at given
      · exact Option.some.inj given ▸ rfl
      · split at given
        · cases given
        · split at given
          · cases given
          · exact Option.some.inj given ▸ rfl
    apply (simulates_registerSame generated agree).bind
    intro handle other after agree _ same
    apply Simulates.context
    rw [agree.isBound_eq]
    split
    · exact .throw agree _
    · exact simulates_modifyBinding agree type fun binding other bindings =>
        { bindings with constructor := .some same }

theorem bindingsAgree_bare (left right : Array Callable) (type : TypeRef) (table : TableId) :
    c.BindingsAgree left right type (.bare c.host.system type .eager table)
      (.bare c.host.system type .lazy table) where
  slots := FinMap.related_empty
  operators := FinMap.related_empty
  itemGetter := .none
  itemSetter := .none
  constructor := .none
  classTable := rfl
  ancestors := rfl

theorem simulates_startBinding (agree : c.Agree before.1 before.2) (type : TypeRef) (table : TableId)
    (namespaces : NamespaceTree) {heap otherHeap : TableHeap}
    (heaps : TableHeap.Related c.rename
      (SameCallable before.1.context.callables before.2.context.callables) heap otherHeap) :
    c.Simulates (some type) before
      (Bridge.modifyContext fun context =>
        { context with
          heap := heap
          namespaces := namespaces
          bindings := context.bindings.insert type (.bare c.host.system type .eager table) } : Bridge ε Unit)
      (Bridge.modifyContext fun context =>
        { context with
          heap := otherHeap
          namespaces := namespaces
          bindings := context.bindings.insert type (.bare c.host.system type .lazy table) }) Equal := by
  refine Or.inr ⟨?_, ⟨fun _ _ => id, fun _ _ => id, fun other binding different bound => ?_⟩, .ok rfl⟩
  · exact { agree with
      heap := heaps
      namespaces := rfl
      bindings := agree.bindings.insert (bindingsAgree_bare _ _ type table) }
  · refine ⟨binding, ?_, fun _ _ slot present => ⟨slot, present, Or.inl rfl⟩⟩
    exact (FinMap.get?_insert_of_ne _ _ fun same => different (congrArg some same)).trans bound

/-- A type that gets its table starts in both contexts with a binding without members. -/
theorem simulates_openBinding (type : TypeRef) (agree : c.Agree before.1 before.2) :
    c.Simulates (some type) before (c.host.openBinding type .eager)
      (c.host.openBinding type .lazy) Equal := by
  have placed := NamespaceTree.related_place c.host.system before.1.context.namespaces type agree.heap
  simp only [Host.openBinding]
  apply Simulates.context
  rw [agree.namespaces]
  apply (Simulates.ofExcept agree placed).bind
  intro place other after agree advances same
  rcases place with ⟨table, namespaces, heap⟩
  rcases other with ⟨otherTable, otherNamespaces, otherHeap⟩
  rcases same with ⟨sameTable, sameNamespaces, heaps⟩
  dsimp only at sameTable sameNamespaces heaps
  subst sameTable sameNamespaces
  have kept := heaps.mono fun _ _ same => same.keep advances.left advances.right
  apply (simulates_startBinding agree type otherTable otherNamespaces kept).bind
  intro _ _ after agree _ _
  exact .pure agree rfl

theorem simulates_bindBase {bind : Binder} (binds : c.BindsAlike bind) (type : TypeRef)
    (agree : c.Agree before.1 before.2) :
    c.Simulates none before (c.host.bindBase bind type c.config.access .eager)
      (c.host.bindBase bind type c.config.access .lazy) Equal := by
  simp only [Host.bindBase]
  split
  · exact (binds _ before agree).discard
  · exact .pure agree rfl

theorem simulates_bindNested {bind : Binder} (binds : c.BindsAlike bind) (type : TypeRef)
    (agree : c.Agree before.1 before.2) :
    c.Simulates none before (c.host.bindNested bind type c.config.access .eager)
      (c.host.bindNested bind type c.config.access .lazy) Equal := by
  simp only [Host.bindNested]
  apply Simulates.context
  rw [agree.config, agree.otherConfig, Config.onDemand_bindsNested]
  have pairs : List.Forall₂ Eq (c.host.nestedToBind type .visible) (c.host.nestedToBind type .visible) :=
    List.forall₂_refl _
  split
  next =>
    apply Simulates.forM pairs agree
    rintro nested _ after rfl agree
    exact (binds nested after agree).discard
  next => exact .pure agree rfl

/-- While the type is being bound, its own binding changes, and those of all other types are kept. -/
theorem simulates_bindAnew {bind : Binder} (binds : c.BindsAlike bind) (type : TypeRef)
    (agree : c.Agree before.1 before.2) :
    c.Simulates (some type) before (c.host.bindAnew bind type c.config.access .eager)
      (c.host.bindAnew bind type c.config.access .lazy) Equal := by
  have marker : (HostValue.type type).Plain := .simple _ rfl rfl
  simp only [Host.bindAnew]
  apply ((simulates_bindBase binds type agree).weaken _).bind
  intro _ _ after agree _ _
  apply (simulates_openBinding type agree).bind
  intro _ table after agree _ same
  rcases same with rfl
  apply (simulates_installMembers binds type agree).bind
  intro _ _ after agree _ _
  apply ((simulates_pushBy binds marker agree).weaken _).bind
  intro value _ after agree _ same
  rcases same with ⟨noFunction, rfl⟩
  apply (simulates_writeEntry agree table _ (.data value noFunction)).bind
  intro _ _ after agree _ _
  apply ((simulates_installEnumeration binds type table agree).weaken _).bind
  intro _ _ after agree _ _
  apply (simulates_installConstructor type agree).bind
  intro _ _ after agree _ _
  apply ((simulates_bindNested binds type agree).weaken _).bind
  intro _ _ after agree _ _
  exact (simulates_count agree _ _).bind fun _ _ after agree _ _ => .pure agree rfl

theorem bindsAlike_bindWithin (c : Comparison) (depth : Nat) : c.BindsAlike (c.host.bindWithin depth) := by
  induction depth with
  | zero => exact fun type before agree => .throw agree _
  | succ depth ih =>
      intro type before agree
      apply Simulates.context
      rcases agree.binding?_cases type with ⟨absent, otherAbsent⟩ | ⟨binding, other, found, otherFound, bindings⟩
      · rw [absent, otherAbsent]
        exact (simulates_bindAnew ih type agree).of_unbound otherAbsent
      · rw [found, otherFound]
        exact .pure agree bindings.classTable

theorem bindsAlike_bindWith (c : Comparison) : c.BindsAlike c.host.bindWith := bindsAlike_bindWithin c _

theorem simulates_ensureBound (type : TypeRef) (agree : c.Agree before.1 before.2) :
    c.Simulates none before (c.host.ensureBound type) (c.host.ensureBound type) Equal :=
  simulates_ensureBoundBy (bindsAlike_bindWith c) type agree

theorem simulates_push {value : HostValue} (plain : value.Plain) (agree : c.Agree before.1 before.2) :
    c.Simulates none before (c.host.push value) (c.host.push value) c.SameData :=
  simulates_pushBy (bindsAlike_bindWith c) plain agree

theorem simulates_bind (type : TypeRef) (agree : c.Agree before.1 before.2) :
    c.Simulates none before (c.host.bind type) (c.host.bind type) Equal := by
  apply Simulates.context
  rw [agree.config, agree.otherConfig]
  dsimp only
  rw [c.isEager]
  exact bindsAlike_bindWith c type before agree

theorem simulates_loadClass (type : TypeRef) (agree : c.Agree before.1 before.2) :
    c.Simulates none before (c.host.loadClass type) (c.host.loadClass type) c.SameData := by
  apply (simulates_bind type agree).bind
  intro _ table after agree _ same
  rcases same with rfl
  exact .pure agree ⟨rfl, rfl⟩

end Comparison

end ScriptBridge
