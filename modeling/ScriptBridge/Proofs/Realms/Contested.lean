import ScriptBridge.Proofs.Realms.Actions
import ScriptBridge.Proofs.Tables.Contested

/-!
# Contested slots in both modes

Which of several members of one name scripts reach when a type is bound eagerly, and which
when it is bound lazily. An event and a method, or a field and a property, are no trouble:
the same of them wins in both modes. Of two accessors of one property, scripts reach the
last one in one mode and the first one in the other.
-/

namespace ScriptBridge

open Bridge

namespace Host

variable {host : Host} {type : TypeRef} {access : MemberAccess} {place : MemberTable × String} {last : CatalogMember}

/--
Several members of a type may compete for one slot. Among the members of one catalog, an eager installation has the
slot wrap the last contender. In a context with the same extension methods, a lazy installation leaves a placeholder
there, which is resolved to the first contender of the kind of the last one. Competitors of different kinds therefore
never make a difference, and both wrap the same member wherever the last contender is a method group, or the only one
of its kind.
-/
theorem contested_slots {depth depthToo : Nat} {eagerly eager lazily deferred : World}
    (extensions : host.extensionsIn lazily.context = host.extensionsIn eagerly.context)
    (made : exec (host.installMembers (host.bindWithin depth) type access .eager) eagerly = (.ok (), eager))
    (stubbed : exec (host.installMembers (host.bindWithin depthToo) type access .lazy) lazily = (.ok (), deferred))
    (wins : (Catalog.ofType host.system type access (host.extensionsIn eagerly.context)).winner? place = some last) :
    let catalog := Catalog.ofType host.system type access (host.extensionsIn eagerly.context)
    ∃ first, catalog.standIn? last = some first ∧ first ∈ catalog.contenders place ∧ first.kind = last.kind ∧
      eager.context.Wraps host.system type place last ∧ host.Defers deferred type place first ∧
      (last.kind = .method → first = last) ∧
      ((∀ other ∈ catalog.contenders place, other.kind = last.kind → other = last) → first = last) := by
  intro catalog
  rcases Catalog.mem_contenders.mp (Catalog.mem_contenders_of_winner? wins) with ⟨listed, there⟩
  rcases Catalog.exists_standIn? listed with ⟨first, standsIn, competes, sameKind⟩
  rcases Catalog.mem_contenders.mp competes with ⟨listedToo, thereToo⟩
  rw [there] at competes
  refine ⟨first, standsIn, competes, sameKind, wraps_of_installMembers made wins, ?_, fun isMethod => ?_,
    fun alone => ?_⟩
  · exact defers_of_installMembers stubbed (extensions ▸ wins) (extensions ▸ standsIn)
  · exact Catalog.eq_of_method_of_place listed listedToo isMethod sameKind thereToo
  · exact alone first competes sameKind

end Host

namespace Realm

def onTurn : TypeDef := .ofDelegate "Game" "OnTurn"

/-- A class with an event and a method of one name. -/
def dial : TypeDef :=
  ((TypeDef.ofClass "Game" "Dial").addMethods [.named "Turned" (.native 0)]).addEvent "Turned" (.declared 14) false
    .null

/-- A class with two accessors that read one property; one of them takes a position. -/
def board : TypeDef :=
  (TypeDef.ofClass "Game" "Board").addMethods
    [ { MethodDef.named "get_Cell" (.native 0) with isSpecial := true },
      { MethodDef.named "get_Cell" (.native 1) with
        isSpecial := true
        parameters := [.plain "row" .int32, .plain "column" .int32] } ]

def dialDeclared : Realm := core.actAll [.declare onTurn, .declare dial]

def boardDeclared : Realm := core.actAll [.declare board]

/-- A world of a realm whose new context has just opened the binding of a type. -/
def justOpened (realm : Realm) (type : TypeRef) (config : Config) : World :=
  (exec (do
    realm.host.bindBase realm.host.bindWith type config.access config.mode
    discard (realm.host.openBinding type config.mode)) ⟨realm.store, .fresh config ⟨1⟩, []⟩).2

/-- The members of a type are installed in a world as the configuration asks for it. -/
def installed (realm : Realm) (type : TypeRef) (config : Config) : Except BindError Unit × World :=
  exec (realm.host.installMembers realm.host.bindWith type config.access config.mode) (realm.justOpened type config)

/-- The catalog that the members of a type are installed from. -/
def opening (realm : Realm) (type : TypeRef) (config : Config) : Catalog :=
  .ofType realm.host.system type config.access
    (realm.host.extensionsIn (realm.justOpened type config).context)

theorem extensionsIn_justOpened (realm : Realm) (type : TypeRef) (config : Config) :
    realm.host.extensionsIn (realm.justOpened type config).context =
      realm.host.extensionsIn (.fresh config ⟨1⟩) := by
  have binds : realm.host.Binds (do
      realm.host.bindBase realm.host.bindWith type config.access config.mode
      discard (realm.host.openBinding type config.mode) : Bridge BindError Unit) :=
    .bind (Host.binds_bindBase Host.binds_bindWith _ _ _) fun _ => .discard (Host.binds_openBinding _ _)
  exact Host.extensionsIn_eq_of_bindSteps (binds _)

/-- Whether members are made with their type or at their first use, the same extension methods join. -/
theorem extensionsIn_justOpened_onDemand (realm : Realm) (type : TypeRef) (config : Config) :
    realm.host.extensionsIn (realm.justOpened type config.onDemand).context =
      realm.host.extensionsIn (realm.justOpened type config).context := by
  rw [extensionsIn_justOpened, extensionsIn_justOpened]
  rfl

theorem opening_onDemand (realm : Realm) (type : TypeRef) (config : Config) :
    realm.opening type config.onDemand = realm.opening type config := by
  rw [opening, extensionsIn_justOpened_onDemand]
  rfl

/-- The method that has the name of an event of dials is reached in both modes. -/
theorem contested_slots_dialDeclared :
    ∃ eager deferred member,
      dialDeclared.installed (.declared 15) .standard = (.ok (), eager) ∧
      dialDeclared.installed (.declared 15) Config.standard.onDemand = (.ok (), deferred) ∧
      ((dialDeclared.opening (.declared 15) .standard).contenders (.methods, "Turned")).length = 2 ∧
      eager.context.Wraps dialDeclared.host.system (.declared 15) (.methods, "Turned") member ∧
      dialDeclared.host.Defers deferred (.declared 15) (.methods, "Turned") member := by
  have eagerly : (dialDeclared.installed (.declared 15) .standard).1.isOk = true := by decide +kernel
  have lazily : (dialDeclared.installed (.declared 15) Config.standard.onDemand).1.isOk = true := by decide +kernel
  have contested : ((dialDeclared.opening (.declared 15) .standard).contenders (.methods, "Turned")).length = 2 ∧
      ((dialDeclared.opening (.declared 15) .standard).winner? (.methods, "Turned")).any
        fun last => last.kind = .method := by
    decide +kernel
  rcases exists_ok_of_isOk eagerly with ⟨_, made⟩
  rcases exists_ok_of_isOk lazily with ⟨_, stubbed⟩
  rcases Option.any_eq_true _ _ |>.mp contested.2 with ⟨last, wins, isMethod⟩
  rcases Host.contested_slots (dialDeclared.extensionsIn_justOpened_onDemand _ _) made stubbed wins with
    ⟨first, -, -, -, wraps, defers, same, -⟩
  rw [same (of_decide_eq_true isMethod)] at defers
  exact ⟨_, _, last, made, stubbed, contested.1, wraps, defers⟩

/-- The numbers of parameters of the methods that a callable chooses from. -/
def arities : Callable → List Nat
  | .method group => group.candidates.map fun candidate => candidate.method.definition.parameters.length
  | _ => []

/-- Where two accessors read one property, a lazy installation promises another one than an eager one makes. -/
theorem not_forall_contested_slots_alike :
    ¬∀ (host : Host) (type : TypeRef) (access : MemberAccess) (place : MemberTable × String) (member : CatalogMember)
      (eagerly eager lazily deferred : World),
      host.extensionsIn lazily.context = host.extensionsIn eagerly.context →
      exec (host.installMembers host.bindWith type access .eager) eagerly = (.ok (), eager) →
      exec (host.installMembers host.bindWith type access .lazy) lazily = (.ok (), deferred) →
      eager.context.Wraps host.system type place member → host.Defers deferred type place member := by
  intro claim
  have eagerly : (boardDeclared.installed (.declared 14) .standard).1.isOk = true := by decide +kernel
  have lazily : (boardDeclared.installed (.declared 14) Config.standard.onDemand).1.isOk = true ∧
      (boardDeclared.installed (.declared 14) Config.standard.onDemand).2.context.callables.size < UInt32.size := by
    decide +kernel
  have contested : ((boardDeclared.opening (.declared 14) .standard).winner? (.getters, "Cell")).any fun last =>
      ((boardDeclared.opening (.declared 14) .standard).standIn? last).any fun first =>
        arities (.ofMember boardDeclared.host.system (.declared 14) first) = [0] ∧
          arities (.ofMember boardDeclared.host.system (.declared 14) last) = [2] := by
    decide +kernel
  rcases exists_ok_of_isOk eagerly with ⟨_, made⟩
  rcases lazily with ⟨lazily, room⟩
  rw [installed] at room
  rcases exists_ok_of_isOk lazily with ⟨_, stubbed⟩
  rcases Option.any_eq_true _ _ |>.mp contested with ⟨last, wins, others⟩
  rcases Option.any_eq_true _ _ |>.mp others with ⟨first, standsIn, arities⟩
  rcases of_decide_eq_true arities with ⟨none, two⟩
  have extensions := boardDeclared.extensionsIn_justOpened_onDemand (.declared 14) .standard
  have wraps := Host.wraps_of_installMembers made wins
  rw [← opening_onDemand] at wins standsIn
  have defers := Host.defers_of_installMembers stubbed wins standsIn
  have same := defers.ofMember_eq (claim _ _ _ _ _ _ _ _ _ extensions made stubbed wraps) room
  rw [same, two] at none
  cases none

end Realm

end ScriptBridge
