import ScriptBridge.Proofs.Namespaces.Declared
import ScriptBridge.Proofs.Realms.BindOrder
import ScriptBridge.Proofs.Realms.StaticLookup
import ScriptBridge.Proofs.Steps.Dropping
import ScriptBridge.Proofs.Tables.Ready
import ScriptBridge.Proofs.Tables.Rebinding

/-!
# Binding a type again

A type that was dropped and is bound again has its old table and new members. Its binding
is what it would be in a context that was just opened, so hidden members that were added to
the old one are gone. Not so in the table: what was entered into it before stays, if binding
does not enter something else there.
-/

namespace ScriptBridge

open Bridge

theorem any_eq_of_forall_mem {α : Type} {items : List α} {first second : α → Bool}
    (same : ∀ item ∈ items, first item = second item) : items.any first = items.any second := by
  rw [Bool.eq_iff_iff, List.any_eq_true, List.any_eq_true]
  exact exists_congr fun item => and_congr_right fun listed => by rw [same item listed]

namespace Context

variable {host : Host} {one other : Context} {binding otherBinding : TypeBinding}

/-- Whether an indexer takes a name does not depend on the context. -/
theorem takesName_eq (one other : Context) (name : String) (properties : List PropertyDef) :
    one.takesName host name properties = other.takesName host name properties := rfl

theorem SameBinding.isSome_slot?_eq (same : one.SameBinding other binding otherBinding) (table : MemberTable)
    (name : String) : (binding.slot? table name).isSome = (otherBinding.slot? table name).isSome :=
  FinMap.isSome_eq_of_rel (same.slots (table, name))

theorem SameBinding.gettableItems_eq (same : one.SameBinding other binding otherBinding) :
    one.gettableItems binding = other.gettableItems otherBinding := by
  have getters := same.itemGetter
  rw [gettableItems, gettableItems]
  generalize binding.itemGetter = getter at getters
  generalize otherBinding.itemGetter = otherGetter at getters
  cases getters with
  | none => rfl
  | some sameCallable =>
      rcases sameCallable with ⟨callable, stands, otherStands⟩
      simp only [Option.bind_some, stands, otherStands]

/-- Bindings with the same members offer the same names. -/
theorem SameBinding.offersRead_eq (same : one.SameBinding other binding otherBinding) (value : HostValue)
    (name : String) (type : TypeRef) :
    binding.offersRead host one value name type = otherBinding.offersRead host other value name type := by
  rw [TypeBinding.offersRead, TypeBinding.offersRead, TypeBinding.hasRead, TypeBinding.hasRead, same.isSome_slot?_eq,
    same.isSome_slot?_eq, same.gettableItems_eq, takesName_eq one other]

/--
What a type offers after it was bound again, compared with a context where it was bound for the first time: its
binding is the same. Reads of instances find the same names, and reads of its table also find what the table had
before, under names for which binding enters nothing. Either is up to what the types offer that the type inherits from.
-/
structure Renewed (host : Host) (config : Config) (store : HostStore) (type : TypeRef) (table : TableId)
    (before : TableHeap) (renewed anew : Context) : Prop where
  binding : ∃ again first, renewed.binding? type = some again ∧ anew.binding? type = some first ∧
    renewed.SameBinding anew again first
  finds : ∀ value name,
    (∀ base ∈ host.system.ancestors type, renewed.reads host value name base = anew.reads host value name base) →
    renewed.finds host type value name = anew.finds host type value name
  findsStatic : ∀ name,
    (∀ base ∈ host.system.ancestors type, renewed.shows name base = anew.shows name base) →
    (renewed.findsStatic host type name = true ↔ anew.findsStatic host type name = true ∨
      (host.handedOut type config.access store).get? name = none ∧
        (before.get table (.string name)).isNil = false)

end Context

namespace Host

/-- Drops a type and binds it again in the configured way. -/
def rebind (host : Host) (type : TypeRef) : Bridge BindError TableId := do
  discard (Host.unbind type)
  host.bind type

/-- A type was just dropped that has a table, and nobody has written into the tables of types. -/
structure Dropped (host : Host) (config : Config) (type : TypeRef) (table : TableId) (world : World) : Prop where
  configured : host.Configured config world.store world
  surveyed : world.context.Surveyed host fun other id => other = type ∧ id = table
  unbound : world.context.isBound type = false

variable {host : Host} {config : Config} {type : TypeRef} {table result : TableId} {world after : World}

theorem exec_rebind (world : World) : exec (host.rebind type) world =
    exec (host.bindWith type world.context.config.access world.context.config.mode) (world.without type) := by
  have drops : exec (discard (Host.unbind type) : Bridge BindError Unit) world = (.ok (), world.without type) := by
    rw [exec_discard, exec_unbind]
    rfl
  rw [rebind, exec_bind_of_ok drops, Host.bind, exec_bind_of_ok (exec_context _)]
  rfl

theorem dropped_of_unwritten (apart : host.NamesApart) {start : World} {tag : CacheTag}
    (fresh : start.context = .fresh config tag) (unwritten : host.Unwritten start world) {binding : TypeBinding}
    (bound : world.context.binding? type = some binding) :
    host.Dropped config type binding.classTable (world.without type) := by
  have surveyed := surveyed_changes apart (fresh ▸ Context.surveyed_fresh host config tag) unwritten
  have known := (surveyed.remember (surveyed.wired.placed type binding bound)).mono
    fun (other : TypeRef) (id : TableId) (same : other = type ∧ id = binding.classTable) => .inr same
  have away : world.without type = { world with context := { world.context with
      bindings := world.context.bindings.erase type
      namespaces := world.context.namespaces.forget type } } := by
    have isBound : world.context.isBound type = true := Option.isSome_of_mem bound
    rw [World.without, Context.without, if_pos isBound]
  have surveyedStill : (world.without type).context.Surveyed host fun other id =>
      other = type ∧ id = binding.classTable := by
    rw [away]
    exact known.unbind type
  have changes : host.Unwritten start (world.without type) := by
    rw [away]
    exact unwritten.tail (.unbind world type)
  refine ⟨configured_of_changes fresh changes surveyedStill.wired.stands, surveyedStill, ?_⟩
  rw [Context.isBound, World.without, Context.binding?_without, if_pos rfl, Option.isSome_none]

namespace Dropped

variable (dropped : host.Dropped config type table world)

include dropped

/-- Where all else that the type needs is bound and what it hands out is there, only callables can run out. -/
theorem limited (apart : host.NamesApart)
    (needs : ∀ next, host.Needs config world.store type next → next ≠ type → world.context.isBound next = true)
    (live : ∀ offer ∈ host.offers type config.access world.store, offer.2.toScript? = none →
      (world.store.typeOf? offer.2).isSome = true) :
    Limited (exec (host.bindWith type config.access config.mode) world) :=
  limited_bindWith apart dropped.surveyed ⟨rfl, rfl⟩ dropped.configured.config_eq needs live

variable (apart : host.NamesApart)
  (run : exec (host.bindWith type config.access config.mode) world = (.ok result, after))

include apart run

/-- The type has its table again. -/
theorem eq_table : result = table := by
  have surveyed := surveyed_of_bindWith apart dropped.surveyed run
  have there := (surveyed.walk?_segments (.inl ⟨rfl, rfl⟩)).1
  exact Option.some.inj ((surveyed.walk?_segments (.inr ⟨rfl, rfl⟩)).1.symm.trans there)

omit apart in
theorem built : (host.building config world.store (fun _ => True) world []).holds after :=
  (keptBy_bindWithin_building (fun _ _ _ _ => trivial) _ trivial []).holds_of_ok ⟨dropped.configured, .refl⟩ run

theorem exists_settled : ∃ settlement, settlement.table = table ∧
    after.context.SettledBy host config world.store type settlement := by
  have bound := isBound_of_bindWithin run
  rcases (settled_of_buildSteps dropped.unbound (dropped.built run).2 bound).resolve_left List.not_mem_nil with
    ⟨settlement, settled⟩
  have placed := table?_of_bindWithin dropped.surveyed.wired run
  have same := Option.some.inj (settled.displays.placed.symm.trans placed)
  exact ⟨settlement, same.trans (dropped.eq_table apart run), settled⟩

theorem regrown : world.context.Regrown host config world.store type table after.context :=
  regrown_of_buildSteps apart (.refl dropped.surveyed ⟨rfl, rfl⟩) (dropped.built run).2

/-- What is compared with a context where the same types were bound for the first time, and the type is the last one. -/
theorem renewed {others : List TypeRef} {tag : CacheTag} {reports : List Report} {anew : World}
    (first : exec (host.bindAll (others ++ [type])) ⟨world.store, .fresh config tag, reports⟩ = (.ok (), anew))
    (sameTypes : ∀ other, anew.context.isBound other = after.context.isBound other) :
    Context.Renewed host config world.store type table world.context.heap after.context anew.context := by
  have surveyedAfter := surveyed_of_bindWith apart dropped.surveyed run
  rcases dropped.exists_settled apart run with ⟨settlement, rfl, settled⟩
  rcases laidOut_of_bindAll first with ⟨laidOut, mapped⟩
  have asked : host.NeededFor config world.store (others ++ [type]) type :=
    ⟨type, List.mem_append_right _ List.mem_cons_self, .refl⟩
  rcases laidOut.settled type asked with ⟨otherSettlement, otherSettled⟩
  have same := settled.sameBinding otherSettled
  have entry := Context.Regrown.entry_iff apart settled (.refl dropped.surveyed ⟨rfl, rfl⟩) (dropped.regrown apart run)
    surveyedAfter.wired.placed otherSettled laidOut (mapped (apart.waysClear _ _ _)) sameTypes
  have chain : after.context.lookupChain host.system type = type :: host.system.ancestors type := by
    rw [Context.lookupChain, settled.bound]
    rfl
  have otherChain : anew.context.lookupChain host.system type = type :: host.system.ancestors type := by
    rw [Context.lookupChain, otherSettled.bound]
    rfl
  refine ⟨⟨_, _, settled.bound, otherSettled.bound, same⟩, fun value name inherited => ?_, fun name inherited => ?_⟩
  · have own : after.context.reads host value name type = anew.context.reads host value name type := by
      rw [Context.reads, Context.reads, settled.bound, otherSettled.bound]
      exact same.offersRead_eq value name type
    rw [Context.finds, Context.finds, chain, otherChain, List.any_cons, List.any_cons, own,
      any_eq_of_forall_mem inherited]
  · have own : after.context.shows name type = true ↔ anew.context.shows name type = true ∨
        (host.handedOut type config.access world.store).get? name = none ∧
          (world.context.heap.get settlement.table (.string name)).isNil = false := by
      simp only [Context.shows, settled.bound, otherSettled.bound, Option.any_some, Bool.or_eq_true, Bool.not_eq_true',
        same.isSome_slot?_eq]
      exact (or_congr_left (entry name)).trans or_right_comm
    simp only [Context.findsStatic, chain, otherChain, List.any_cons, Bool.or_eq_true, own,
      any_eq_of_forall_mem inherited]
    tauto

end Dropped

theorem wired_of_bindAll {types : List TypeRef} {store : HostStore} {tag : CacheTag} {reports : List Report}
    (run : exec (host.bindAll types) ⟨store, .fresh config tag, reports⟩ = (.ok (), after)) :
    after.context.Wired host.system := by
  have kept : host.wiring.KeptBy (host.bindAll types) := by
    refine .forM types fun type _ => .discard (.bind .context fun context => ?_)
    exact (respects_wiring host).bindWith type _ _
  have starts : host.wiring.holds ⟨store, .fresh config tag, reports⟩ := Context.wired_fresh host.system config tag
  exact kept.holds_of_ok starts run

/--
A type that was dropped is bound again as it was. In every state that a context reaches without anybody writing
into its namespaces and tables of types, a bound type that is dropped and bound again gets the table that it had. It
can fail to be bound only if callables run out, as long as all that it needs is bound and what it hands out is there.
And it offers what it offers in a context that was just opened, where the same types are bound: no more is found from
its instances, and in its table no more but the entries that the table had before, under names for which binding
enters nothing.
-/
theorem rebinding_renews (apart : host.NamesApart) {start world : World} {tag : CacheTag}
    (fresh : start.context = .fresh config tag) (unwritten : host.Unwritten start world) {binding : TypeBinding}
    (bound : world.context.binding? type = some binding) :
    ((∀ next, host.Needs config world.store type next → world.context.isBound next = true) →
      (∀ offer ∈ host.offers type config.access world.store, offer.2.toScript? = none →
        (world.store.typeOf? offer.2).isSome = true) →
      Limited (exec (host.rebind type) world)) ∧
    ∀ table after, exec (host.rebind type) world = (.ok table, after) →
      table = binding.classTable ∧ host.DecidedByFirst type table after ∧
      ∀ (others : List TypeRef) (tag : CacheTag) (reports : List Report) (anew : World),
        exec (host.bindAll (others ++ [type])) ⟨world.store, .fresh config tag, reports⟩ = (.ok (), anew) →
        (∀ other, anew.context.isBound other = after.context.isBound other) →
        Context.Renewed host config world.store type table world.context.heap after.context anew.context ∧
          ∀ first, anew.context.binding? type = some first → host.DecidedByFirst type first.classTable anew := by
  have dropped := dropped_of_unwritten apart fresh unwritten bound
  have same : exec (host.rebind type) world =
      exec (host.bindWith type config.access config.mode) (world.without type) := by
    rw [exec_rebind, show world.context.config = config from dropped.configured.config_eq]
  rw [same]
  refine ⟨fun needs live => ?_, fun table after run => ?_⟩
  · refine dropped.limited apart (fun next needed different => ?_) live
    rw [Context.isBound, World.without, Context.binding?_without, if_neg different]
    exact needs next needed
  · obtain rfl := dropped.eq_table apart run
    rcases dropped.exists_settled apart run with ⟨settlement, sameTable, settled⟩
    have wired := (surveyed_of_bindWith apart dropped.surveyed run).wired
    refine ⟨rfl, ?_, fun others tag reports anew first sameTypes => ⟨dropped.renewed apart run first sameTypes, ?_⟩⟩
    · rw [← sameTable]
      exact decidedByFirst_of_wired wired settled.bound
    · exact fun _ => decidedByFirst_of_wired (wired_of_bindAll first)

/-- What a type needs is its base, the types nested in it, and the types of what it hands out. -/
theorem forall_needs_of_all {store : HostStore} {meets : TypeRef → Bool}
    (base : (host.system.base? type).all meets = true)
    (nested : ∀ nested ∈ host.nestedToBind type .visible, meets nested = true)
    (carried : ∀ offer ∈ host.offers type config.access store, (store.typeOf? offer.2).all meets = true) :
    ∀ next, host.Needs config store type next → meets next = true := by
  intro next needs
  cases needs with
  | base known => simpa [known] using base
  | nested _ listed => exact nested next listed
  | carried offered _ typed => simpa [typed] using carried _ offered

end Host

theorem Context.isBound_eq_of_keys {one other : Context}
    (sameKeys : (∀ type ∈ one.bindings.keys, type ∈ other.bindings.keys) ∧
      ∀ type ∈ other.bindings.keys, type ∈ one.bindings.keys) (type : TypeRef) :
    one.isBound type = other.isBound type := by
  have bound (context : Context) : context.isBound type = true ↔ type ∈ context.bindings.keys := by
    constructor
    · intro isBound
      rcases Option.isSome_iff_exists.mp isBound with ⟨binding, found⟩
      exact List.mem_map.mpr ⟨(type, binding), FinMap.mem_entries_of_get? found, rfl⟩
    · intro listed
      rcases List.mem_map.mp listed with ⟨entry, present, rfl⟩
      exact FinMap.isSome_get?_of_mem present
  rw [Bool.eq_iff_iff, bound, bound]
  exact ⟨sameKeys.1 type, sameKeys.2 type⟩

namespace Realm

/-- A class with a hidden constant and a hidden property. -/
def vault : TypeDef :=
  ((TypeDef.ofClass "Game" "Vault").addField
      { FieldDef.named "Code" .int32 (.int32 42) with
        isStatic := true, isReadonly := true, visibility := .hidden }).addProperty
    "Depth" .int32 false .hidden [] (some (.native 0)) none

def safe : TypeDef := { TypeDef.ofClass "Game" "Safe" with base := some (.declared 14) }

def vaultDeclared : Realm := core.actAll [.declare vault, .declare safe]

/-- Vaults and safes are bound, and the hidden members of vaults are shown. -/
def vaultShown : World :=
  let bound := (exec (vaultDeclared.host.bindWith (.declared 15) .visibleOnly .eager) (vaultDeclared.opened ⟨1⟩)).2
  (exec (vaultDeclared.host.showHidden (.declared 14)) bound).2

theorem namesApart_vaultDeclared : vaultDeclared.host.NamesApart := Host.namesApart_of_unused (by decide +kernel)

theorem unwritten_vaultShown : vaultDeclared.host.Unwritten (vaultDeclared.opened ⟨1⟩) vaultShown :=
  .tail (.single (.bindWith _ _ _ _)) (.showHidden _ _)

/-- Vaults or safes are dropped and bound again. -/
def reboundOf (type : TypeRef) : Except BindError TableId × World := exec (vaultDeclared.host.rebind type) vaultShown

/-- Vaults and safes are bound in a context that was just opened, those of a type last. -/
def anewFor (other type : TypeRef) : Except BindError Unit × World :=
  exec (vaultDeclared.host.bindAll ([other] ++ [type])) ⟨vaultShown.store, .fresh .standard ⟨2⟩, []⟩

theorem exec_reboundOf {type : TypeRef} (ok : (reboundOf type).1.isOk = true) :
    ∃ table, exec (vaultDeclared.host.rebind type) vaultShown = (.ok table, (reboundOf type).2) :=
  exists_ok_of_isOk ok

theorem exec_anewFor {other type : TypeRef} (ok : (anewFor other type).1.isOk = true) :
    exec (vaultDeclared.host.bindAll ([other] ++ [type])) ⟨vaultShown.store, .fresh .standard ⟨2⟩, []⟩ =
      (.ok (), (anewFor other type).2) := by
  rcases exists_ok_of_isOk ok with ⟨_, run⟩
  exact run

/-- A vault that is bound again keeps the depth from scripts that was shown to them before. -/
theorem rebinding_renews_vaultShown :
    ∃ binding, vaultShown.context.binding? (.declared 14) = some binding ∧
      Host.Limited (reboundOf (.declared 14)) ∧ (reboundOf (.declared 14)).1 = .ok binding.classTable ∧
      vaultShown.context.finds vaultDeclared.host (.declared 14) (.object ⟨0⟩) "Depth" = true ∧
      (reboundOf (.declared 14)).2.context.finds vaultDeclared.host (.declared 14) (.object ⟨0⟩) "Depth" = false := by
  have isBound : vaultShown.context.isBound (.declared 14) = true := by decide +kernel
  rcases Option.isSome_iff_exists.mp isBound with ⟨binding, bound⟩
  rcases Host.rebinding_renews namesApart_vaultDeclared rfl unwritten_vaultShown bound with ⟨limited, renewed⟩
  rcases @exec_reboundOf (.declared 14) (by decide +kernel) with ⟨table, run⟩
  rcases renewed table _ run with ⟨rfl, -, compared⟩
  have first := @exec_anewFor (.declared 15) (.declared 14) (by decide +kernel)
  have sameTypes : ∀ type, (anewFor (.declared 15) (.declared 14)).2.context.isBound type =
      (reboundOf (.declared 14)).2.context.isBound type := Context.isBound_eq_of_keys (by decide +kernel)
  have inherited : ∀ base ∈ vaultDeclared.host.system.ancestors (.declared 14),
      (reboundOf (.declared 14)).2.context.reads vaultDeclared.host (.object ⟨0⟩) "Depth" base =
        (anewFor (.declared 15) (.declared 14)).2.context.reads vaultDeclared.host (.object ⟨0⟩) "Depth" base := by
    decide +kernel
  have hidden : (anewFor (.declared 15) (.declared 14)).2.context.finds vaultDeclared.host (.declared 14) (.object ⟨0⟩)
      "Depth" = false := by
    decide +kernel
  have renewal := (compared [.declared 15] ⟨2⟩ [] _ first sameTypes).1
  have afresh := renewal.finds (.object ⟨0⟩) "Depth" inherited
  refine ⟨binding, bound, limited ?_ ?_, congrArg Prod.fst run, by decide +kernel, afresh.trans hidden⟩
  · exact Host.forall_needs_of_all (by decide +kernel) (by decide +kernel) (by decide +kernel)
  · decide +kernel

/-- Types of which one hands out null under the name of the one that is nested in it, which was bound first. -/
def innerHidden : World :=
  let bound := (exec (outerDeclared.host.bindWith (.declared 14) .visibleOnly .eager) (outerDeclared.opened ⟨1⟩)).2
  (exec (outerDeclared.host.bindWith (.declared 15) .visibleOnly .eager) bound).2

/--
A hidden constant that was shown is found in the table of a type that was bound again, though not in that of a context
that was just opened. A type that was bound again also offers what its base was made to show. And if something is handed
out under the name of a type, this type can get another table than it had.
-/
theorem not_forall_rebinding_renews :
    (¬∀ (host : Host) (config : Config) (tag freshTag : CacheTag) (start world after anew : World) (type : TypeRef)
        (binding : TypeBinding) (table : TableId) (others : List TypeRef) (name : String),
      host.NamesApart → start.context = .fresh config tag → host.Unwritten start world →
      world.context.binding? type = some binding → exec (host.rebind type) world = (.ok table, after) →
      exec (host.bindAll (others ++ [type])) ⟨world.store, .fresh config freshTag, []⟩ = (.ok (), anew) →
      (∀ other, anew.context.isBound other = after.context.isBound other) →
      after.context.findsStatic host type name = anew.context.findsStatic host type name) ∧
    (¬∀ (host : Host) (config : Config) (tag freshTag : CacheTag) (start world after anew : World) (type : TypeRef)
        (binding : TypeBinding) (table : TableId) (others : List TypeRef) (value : HostValue) (name : String),
      host.NamesApart → start.context = .fresh config tag → host.Unwritten start world →
      world.context.binding? type = some binding → exec (host.rebind type) world = (.ok table, after) →
      exec (host.bindAll (others ++ [type])) ⟨world.store, .fresh config freshTag, []⟩ = (.ok (), anew) →
      (∀ other, anew.context.isBound other = after.context.isBound other) →
      after.context.finds host type value name = anew.context.finds host type value name) ∧
    ¬∀ (host : Host) (config : Config) (tag : CacheTag) (start world after : World) (type : TypeRef)
        (binding : TypeBinding) (table : TableId),
      start.context = .fresh config tag → host.Unwritten start world →
      world.context.binding? type = some binding → exec (host.rebind type) world = (.ok table, after) →
      table = binding.classTable := by
  refine ⟨fun claim => ?_, fun claim => ?_, fun claim => ?_⟩
  · have isBound : vaultShown.context.isBound (.declared 14) = true := by decide +kernel
    rcases Option.isSome_iff_exists.mp isBound with ⟨binding, bound⟩
    rcases @exec_reboundOf (.declared 14) (by decide +kernel) with ⟨table, run⟩
    have first := @exec_anewFor (.declared 15) (.declared 14) (by decide +kernel)
    have sameTypes : ∀ type, (anewFor (.declared 15) (.declared 14)).2.context.isBound type =
        (reboundOf (.declared 14)).2.context.isBound type := Context.isBound_eq_of_keys (by decide +kernel)
    have same := claim _ _ _ _ _ _ _ _ _ binding table _ "Code" namesApart_vaultDeclared rfl unwritten_vaultShown bound
      run first sameTypes
    have different : (reboundOf (.declared 14)).2.context.findsStatic vaultDeclared.host (.declared 14) "Code" ≠
        (anewFor (.declared 15) (.declared 14)).2.context.findsStatic vaultDeclared.host (.declared 14) "Code" := by
      decide +kernel
    exact different same
  · have isBound : vaultShown.context.isBound (.declared 15) = true := by decide +kernel
    rcases Option.isSome_iff_exists.mp isBound with ⟨binding, bound⟩
    rcases @exec_reboundOf (.declared 15) (by decide +kernel) with ⟨table, run⟩
    have first := @exec_anewFor (.declared 14) (.declared 15) (by decide +kernel)
    have sameTypes : ∀ type, (anewFor (.declared 14) (.declared 15)).2.context.isBound type =
        (reboundOf (.declared 15)).2.context.isBound type := Context.isBound_eq_of_keys (by decide +kernel)
    have same := claim _ _ _ _ _ _ _ _ _ binding table _ (.object ⟨0⟩) "Depth" namesApart_vaultDeclared rfl
      unwritten_vaultShown bound run first sameTypes
    have different :
        (reboundOf (.declared 15)).2.context.finds vaultDeclared.host (.declared 15) (.object ⟨0⟩) "Depth" ≠
          (anewFor (.declared 14) (.declared 15)).2.context.finds vaultDeclared.host (.declared 15) (.object ⟨0⟩)
            "Depth" := by
      decide +kernel
    exact different same
  · have isBound : innerHidden.context.isBound (.declared 14) = true := by decide +kernel
    rcases Option.isSome_iff_exists.mp isBound with ⟨binding, bound⟩
    obtain ⟨table, run⟩ : ∃ table, exec (outerDeclared.host.rebind (.declared 14)) innerHidden = (.ok table, _) :=
      exists_ok_of_isOk (by decide +kernel)
    have unwritten : outerDeclared.host.Unwritten (outerDeclared.opened ⟨1⟩) innerHidden :=
      .tail (.single (.bindWith _ _ _ _)) (.bindWith _ _ _ _)
    have same := claim _ _ _ _ _ _ _ binding table rfl unwritten bound run
    have different : (exec (outerDeclared.host.rebind (.declared 14)) innerHidden).1.toOption ≠
        (innerHidden.context.binding? (.declared 14)).map (·.classTable) := by
      decide +kernel
    rw [run, bound, same] at different
    exact different rfl

end Realm

end ScriptBridge
