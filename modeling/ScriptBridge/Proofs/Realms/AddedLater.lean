import ScriptBridge.Proofs.Realms.Actions
import ScriptBridge.Proofs.Tables.AddedLater

/-!
# Private access, at once or later

A context that binds the visible members of a type and shows the hidden ones later
has the same in the tables of the type as a context that binds all members at once.
-/

namespace ScriptBridge

open Bridge

/-- Two contexts have the same members and operators of a type: what one makes for a name the other makes too. -/
structure Context.SameMembers (context other : Context) (type : TypeRef) : Prop where
  entries : ∀ place, context.entry? type place = other.entry? type place
  operators : ∀ operator, context.operatorEntry? type operator = other.operatorEntry? type operator
  /-- What is in the tables of members has been made. -/
  made : ∀ place entry, context.entry? type place = some entry → ∃ callable, entry = (true, some callable)

/--
When the members of a type are declared in the usual way, binding its visible members
and showing its hidden ones later leaves in its tables what binding all its members
leaves there: at the same names the same fields, accessors and events, and the same
candidates in the same order, those from extensions among them.
-/
theorem Host.sameMembers_of_showHidden (host : Host) (type : TypeRef) {world bound shown other whole : World}
    {table tableToo : TableId}
    (conventional : Catalog.Conventional host.system type (host.extensionsIn world.context))
    (extensions : host.extensionsIn other.context = host.extensionsIn world.context)
    (unbound : world.context.isBound type = false) (unboundToo : other.context.isBound type = false)
    (binding : exec (host.bindWith type .visibleOnly .eager) world = (.ok table, bound))
    (showing : exec (host.showHidden type) bound = (.ok (), shown))
    (bindingAll : exec (host.bindWith type .all .eager) other = (.ok tableToo, whole)) :
    shown.context.SameMembers whole.context type ∧
      host.Shows whole.context type (.ofType host.system type .all (host.extensionsIn world.context)) := by
  have later := shows_of_showHidden conventional unbound binding showing
  have atOnce := shows_of_bindWith unboundToo bindingAll
  rw [extensions] at atOnce
  refine ⟨⟨fun place => ?_, fun operator => ?_, fun place entry found => ?_⟩, atOnce⟩
  · rw [later.entries, atOnce.entries]
  · rw [later.operators, atOnce.operators]
  · rw [later.entries, Option.map_eq_some_iff] at found
    rcases found with ⟨member, -, rfl⟩
    exact ⟨_, rfl⟩

namespace Realm

/-- A type with visible and hidden overloads, a hidden field, properties, an event and operators. -/
def gate : TypeDef :=
  let named (name : String) (parameter : TypeRef) : MethodDef :=
    { MethodDef.named name (.native 0) with parameters := [.plain "value" parameter] }
  let declared := ((TypeDef.ofClass "Game" "Gate").addMethods
    [named "Open" .int32, { named "Open" .string with visibility := .hidden },
      { named "Close" .string with visibility := .hidden, isStatic := true }]).addField
        { FieldDef.named "code" .int32 .null with visibility := .hidden }
  let withProperties := (declared.addAutoProperty "Width" .int32 false .null).addProperty "Lock" .int32 false .hidden []
    (some (.native 0)) none
  ((withProperties.addEvent "Opened" .delegate false .null).addOperator (named "op_Addition" .int32)).addOperator
    { named "op_Addition" .string with visibility := .hidden }

/-- Two methods that extend it. -/
def gateExtensions : TypeDef :=
  { (TypeDef.ofClass "Game" "GateExtensions").addMethods
      [{ MethodDef.named "Open" (.native 0) with
          isStatic := true
          isExtension := true
          parameters := [.plain "gate" (.declared 14), .plain "value" .boolean] },
        { MethodDef.named "Close" (.native 0) with
          isStatic := true
          isExtension := true
          parameters := [.plain "gate" (.declared 14)] }] with
    isExtensionContainer := true }

/-- Both types are declared and registered, and two contexts are opened. -/
def gateRegistered : List Action :=
  [.declare gate, .declare gateExtensions, .addNative fun _ invocation => pure (invocation.complete .null),
    .register (.declared 14), .register (.declared 15), .openContext .standard, .openContext .standard]

theorem accountsForAll_gate : gate.AccountsForAll := by
  refine .addOperator (.addOperator (.addEvent (.addProperty (.addAutoProperty (.addField (.addMethods ?_ ?_) _)
    _ _ _ _) _ _ _ _ _ _ _) _ _ _ _) rfl rfl) rfl rfl
  · intro method listed
    cases listed
  · decide

theorem conventional_gate : Catalog.Conventional (core.actAll gateRegistered).system (.declared 14)
    (some (ExtensionMap.collect (core.actAll gateRegistered).system (core.actAll gateRegistered).registry)) where
  special := accountsForAll_gate
  indexers := by decide +kernel
  plain := by decide +kernel
  distinct := by decide +kernel
  events := by decide +kernel
  hiddenEvents := by decide +kernel
  agree := by decide +kernel

theorem extensionsIn_of_absent {host : Host} {context : Context} (merges : context.config.mergesExtensions = true)
    (absent : context.extensions = none) :
    host.extensionsIn context = some (.collect host.system host.registry) := by
  rw [Host.extensionsIn, if_pos merges, absent]
  rfl

/-- One context shows the hidden members of gates later, the other binds all of them at once. -/
theorem sameMembers_of_showHidden_gate :
    ∃ first second table tableToo bound shown whole,
      (core.actAll gateRegistered).contexts[0]? = some first ∧
      (core.actAll gateRegistered).contexts[1]? = some second ∧
      exec ((core.actAll gateRegistered).host.bindWith (.declared 14) .visibleOnly .eager)
        ⟨(core.actAll gateRegistered).store, first, []⟩ = (.ok table, bound) ∧
      exec ((core.actAll gateRegistered).host.showHidden (.declared 14)) bound = (.ok (), shown) ∧
      exec ((core.actAll gateRegistered).host.bindWith (.declared 14) .all .eager)
        ⟨(core.actAll gateRegistered).store, second, []⟩ = (.ok tableToo, whole) ∧
      shown.context.SameMembers whole.context (.declared 14) := by
  have reached : (core.actAll gateRegistered).contexts[0]?.any fun first =>
      (core.actAll gateRegistered).contexts[1]?.any fun second =>
        let bound := exec ((core.actAll gateRegistered).host.bindWith (.declared 14) .visibleOnly .eager)
          ⟨(core.actAll gateRegistered).store, first, []⟩
        let whole := exec ((core.actAll gateRegistered).host.bindWith (.declared 14) .all .eager)
          ⟨(core.actAll gateRegistered).store, second, []⟩
        !first.isBound (.declared 14) && !second.isBound (.declared 14) && first.config.mergesExtensions &&
          second.config.mergesExtensions && first.extensions.isNone && second.extensions.isNone && bound.1.isOk &&
          (exec ((core.actAll gateRegistered).host.showHidden (.declared 14)) bound.2).1.isOk && whole.1.isOk := by
    decide +kernel
  rcases Option.any_eq_true _ _ |>.mp reached with ⟨first, present, reached⟩
  rcases Option.any_eq_true _ _ |>.mp reached with ⟨second, presentToo, holds⟩
  simp only [Bool.and_eq_true, Bool.not_eq_true', Option.isNone_iff_eq_none] at holds
  rcases holds with ⟨⟨⟨⟨⟨⟨⟨⟨unbound, unboundToo⟩, merges⟩, mergesToo⟩, absent⟩, absentToo⟩, binds⟩, shows⟩, bindsAll⟩
  rcases exists_ok_of_isOk binds with ⟨table, binding⟩
  rcases exists_ok_of_isOk shows with ⟨_, showing⟩
  rcases exists_ok_of_isOk bindsAll with ⟨tableToo, bindingAll⟩
  have extensions := @extensionsIn_of_absent (core.actAll gateRegistered).host first merges absent
  have extensionsToo := @extensionsIn_of_absent (core.actAll gateRegistered).host second mergesToo absentToo
  refine ⟨first, second, table, tableToo, _, _, _, present, presentToo, binding, showing, bindingAll, ?_⟩
  refine (Host.sameMembers_of_showHidden _ _ ?_ ?_ unbound unboundToo binding showing bindingAll).1
  · rw [extensions]
    exact conventional_gate
  · rw [extensions, extensionsToo]

end Realm

end ScriptBridge
