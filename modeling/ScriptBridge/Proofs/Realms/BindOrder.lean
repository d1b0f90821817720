import ScriptBridge.Proofs.Realms.Actions
import ScriptBridge.Proofs.Tables.Layout

/-!
# The order of binding

Whatever order some types are bound in, just the types that are needed for them end up
bound, with the same members. The paths lead to the same tables too, unless a type hands
out a name that is on the way to another: then it depends on the order whether a table or
what was handed out has the name in the end.
-/

namespace ScriptBridge

open Bridge

namespace Host

/-- Binds types one after the other in the configured way. -/
def bindAll (host : Host) (types : List TypeRef) : Bridge BindError Unit :=
  types.forM fun type => discard (host.bind type)

/-- A type is asked for, or needed in turn by a type that is asked for. -/
def NeededFor (host : Host) (config : Config) (store : HostStore) (types : List TypeRef) (type : TypeRef) : Prop :=
  ∃ asked ∈ types, Relation.ReflTransGen (host.Needs config store) asked type

variable {host : Host} {config : Config} {store : HostStore} {types : List TypeRef} {world after : World}

theorem isBound_of_bind {type : TypeRef} {table : TableId} (run : exec (host.bind type) world = (.ok table, after)) :
    after.context.isBound type = true := by
  rw [bind, exec_bind_of_ok (exec_context world)] at run
  exact isBound_of_bindWithin run

theorem isBound_of_bindAll {type : TypeRef} (asked : type ∈ types)
    (run : exec (host.bindAll types) world = (.ok (), after)) : after.context.isBound type = true := by
  induction types generalizing world with
  | nil => cases asked
  | cons first rest ih =>
      rcases exec_bind_eq_ok run with ⟨_, middle, binding, others⟩
      rcases List.mem_cons.mp asked with rfl | inRest
      · rcases exec_discard_eq_ok binding with ⟨table, bound⟩
        have binds : host.Binds (host.bindAll rest) :=
          .forM rest fun type => .discard (.bind .context fun _ => binds_bindWith _ _ _)
        exact isBound_of_bindSteps (binds.chain others) (isBound_of_bind bound)
      · exact ih inRest others

theorem keptBy_bindAll_building {start : World} :
    (host.building config store (host.NeededFor config store types) start []).KeptBy (host.bindAll types) := by
  refine .forM types fun type listed => .discard fun world holds => ?_
  rw [bind, exec_bind_of_ok (exec_context world), holds.1.config_eq]
  refine keptBy_bindWithin_building ?_ _ ⟨type, listed, .refl⟩ [] world holds
  rintro other next ⟨asked, present, needed⟩ needs
  exact ⟨asked, present, needed.tail needs⟩

/-- What binding types in a fresh context leads to. -/
theorem laidOut_of_bindAll {tag : CacheTag} {reports : List Report}
    (run : exec (host.bindAll types) ⟨store, .fresh config tag, reports⟩ = (.ok (), after)) :
    after.context.LaidOut host config store (host.NeededFor config store types) ∧
      (host.WaysClear config.access store (host.NeededFor config store types) →
        after.context.Mapped host config store) := by
  have fresh : ∀ type, (Context.fresh config tag).isBound type = false := fun _ => rfl
  have built := keptBy_bindAll_building.holds_of_ok ⟨host.configured_fresh config tag store reports, .refl⟩ run
  have settled : ∀ type, after.context.isBound type = true → after.context.Settled host config store type :=
    fun type bound => (settled_of_buildSteps (fresh type) built.2 bound).resolve_left List.not_mem_nil
  have bound : ∀ type, host.NeededFor config store types type → after.context.isBound type = true := by
    rintro type ⟨asked, listed, needed⟩
    induction needed with
    | refl => exact isBound_of_bindAll listed run
    | tail _ needs ih =>
        rcases settled _ ih with ⟨settlement, settledBy⟩
        exact settledBy.needs _ needs
  refine ⟨⟨fun type => ⟨among_of_buildSteps fresh built.2 type, bound type⟩, fun type needed => ?_⟩, fun clear => ?_⟩
  · exact settled type (bound type needed)
  · exact mapped_of_buildSteps fresh (.fresh host config store tag) clear built.2

/-- Only the names that the bound types hand out have to be looked at. -/
theorem waysClear_of_keys {context : Context} {access : MemberAccess}
    (apart : ∀ type ∈ context.bindings.keys, ∀ other ∈ context.bindings.keys,
      ∀ entry ∈ (host.handedOut type access store).entries,
        ¬host.system.segments type ++ [entry.1] <+: host.system.segments other) :
    host.WaysClear access store (fun type => context.isBound type = true) := by
  have listed : ∀ type, context.isBound type = true → type ∈ context.bindings.keys := by
    intro type bound
    rcases Option.isSome_iff_exists.mp bound with ⟨binding, found⟩
    exact List.mem_map.mpr ⟨(type, binding), FinMap.mem_entries_of_get? found, rfl⟩
  intro type other name rest bound otherBound onWay
  cases found : (host.handedOut type access store).get? name with
  | none => rfl
  | some value =>
      refine absurd ?_ (apart type (listed type bound) other (listed other otherBound) (name, value)
        (FinMap.mem_entries_of_get? found))
      exact ⟨rest, by rw [onWay, List.append_assoc]; rfl⟩

/--
In any order in which some types can be bound in fresh contexts of one configuration, the
same types end up bound, just those that are needed, and each has the same members,
operators, accessors and constructor. If no name that one of them hands out is on the way
to another, the same paths lead to the same tables with the same entries, and every bound
type is at the end of its path.
-/
theorem bindAll_inAnyOrder (host : Host) (config : Config) (store : HostStore) (types others : List TypeRef)
    (same : ∀ type, type ∈ types ↔ type ∈ others) (tag otherTag : CacheTag) (reports otherReports : List Report)
    (after otherAfter : World)
    (run : exec (host.bindAll types) ⟨store, .fresh config tag, reports⟩ = (.ok (), after))
    (otherRun : exec (host.bindAll others) ⟨store, .fresh config otherTag, otherReports⟩ = (.ok (), otherAfter)) :
    (∀ type, after.context.isBound type = true ↔ host.NeededFor config store types type) ∧
      after.context.SameBindings otherAfter.context ∧
      (host.WaysClear config.access store (fun type => after.context.isBound type = true) →
        after.context.SameTables otherAfter.context ∧ after.context.Reached host.system ∧
          otherAfter.context.Reached host.system) := by
  have sameNeeds : host.NeededFor config store others = host.NeededFor config store types := by
    funext type
    exact propext (exists_congr fun asked => and_congr_left' (same asked).symm)
  rcases laidOut_of_bindAll run with ⟨laidOut, mapped⟩
  rcases laidOut_of_bindAll otherRun with ⟨otherLaidOut, otherMapped⟩
  rw [sameNeeds] at otherLaidOut otherMapped
  refine ⟨laidOut.bound, laidOut.sameBindings otherLaidOut, fun clear => ?_⟩
  simp only [laidOut.bound] at clear
  have map := mapped clear
  have otherMap := otherMapped clear
  exact ⟨laidOut.sameTables otherLaidOut map otherMap, laidOut.reached map, otherLaidOut.reached otherMap⟩

end Host

namespace Realm

def month : TypeDef := .ofEnumeration "Time" "Month" [("May", 5), ("June", 6)]

def page : TypeDef := { TypeDef.ofClass "Time" "Page" with enclosing := ["Calendar"] }

/-- A type with a nested type and a constant of an enumeration. -/
def calendar : TypeDef :=
  { (TypeDef.ofClass "Time" "Calendar").addField
      ((FieldDef.named "First" (.declared 14) .null).asLiteral (.enumeration (.declared 14) 5)) with
    nested := [.declared 15] }

def calendarDeclared : Realm := core.actAll [.declare month, .declare page, .declare calendar]

/-- A context of the realm that was just opened. -/
def opened (realm : Realm) (tag : CacheTag) : World := ⟨realm.store, .fresh .standard tag, []⟩

/-- Whether the page is bound before the calendar or with it, the contexts are the same in the end. -/
theorem bindAll_inAnyOrder_calendarDeclared :
    ∃ after otherAfter,
      exec (calendarDeclared.host.bindAll [.declared 15, .declared 16]) (calendarDeclared.opened ⟨1⟩) =
        (.ok (), after) ∧
      exec (calendarDeclared.host.bindAll [.declared 16, .declared 15]) (calendarDeclared.opened ⟨2⟩) =
        (.ok (), otherAfter) ∧
      after.context.isBound (.declared 14) = true ∧ after.context.SameBindings otherAfter.context ∧
      after.context.SameTables otherAfter.context := by
  rcases exists_ok_and (calendarDeclared.host.bindAll [.declared 15, .declared 16]) (calendarDeclared.opened ⟨1⟩)
    (fun world => world.context.isBound (.declared 14) = true ∧
      ∀ type ∈ world.context.bindings.keys, ∀ other ∈ world.context.bindings.keys,
        ∀ entry ∈ (calendarDeclared.host.handedOut type .visibleOnly calendarDeclared.store).entries,
          ¬calendarDeclared.host.system.segments type ++ [entry.1] <+: calendarDeclared.host.system.segments other)
    (by decide +kernel) with ⟨_, after, run, bound, apart⟩
  rcases exists_ok_and (calendarDeclared.host.bindAll [.declared 16, .declared 15]) (calendarDeclared.opened ⟨2⟩)
    (fun _ => True) (by decide +kernel) with ⟨_, otherAfter, otherRun, -⟩
  have same : ∀ type, type ∈ [TypeRef.declared 15, .declared 16] ↔ type ∈ [TypeRef.declared 16, .declared 15] := by
    simp [or_comm]
  rcases Host.bindAll_inAnyOrder calendarDeclared.host .standard calendarDeclared.store _ _ same ⟨1⟩ ⟨2⟩ [] [] after
    otherAfter run otherRun with ⟨-, bindings, tables⟩
  exact ⟨after, otherAfter, run, otherRun, bound, bindings, (tables (Host.waysClear_of_keys apart)).1⟩

def inner : TypeDef := { TypeDef.ofClass "Game" "Inner" with enclosing := ["Outer"] }

/-- A type with a constant of the name of the type that is nested in it. -/
def outer : TypeDef :=
  (TypeDef.ofClass "Game" "Outer").addField ((FieldDef.named "Inner" .string .null).asLiteral .null)

def outerDeclared : Realm := core.actAll [.declare inner, .declare outer]

/--
If a type hands out null under the name of a type that is nested in it, the nested type
cannot be reached by its path when it was bound first, but can when it was bound last.
-/
theorem not_forall_sameTables :
    ¬∀ (host : Host) (config : Config) (store : HostStore) (types others : List TypeRef) (tag otherTag : CacheTag)
        (after otherAfter : World),
      (∀ type, type ∈ types ↔ type ∈ others) →
      exec (host.bindAll types) ⟨store, .fresh config tag, []⟩ = (.ok (), after) →
      exec (host.bindAll others) ⟨store, .fresh config otherTag, []⟩ = (.ok (), otherAfter) →
      after.context.SameBindings otherAfter.context ∧ after.context.SameTables otherAfter.context := by
  intro claim
  rcases exists_ok_and (outerDeclared.host.bindAll [.declared 14, .declared 15]) (outerDeclared.opened ⟨1⟩)
    (fun world => (world.context.heap.walk? world.context.namespaces.root ["Game", "Outer", "Inner"]).isSome = false)
    (by decide +kernel) with ⟨_, after, run, hidden⟩
  rcases exists_ok_and (outerDeclared.host.bindAll [.declared 15, .declared 14]) (outerDeclared.opened ⟨2⟩)
    (fun world => (world.context.heap.walk? world.context.namespaces.root ["Game", "Outer", "Inner"]).isSome = true)
    (by decide +kernel) with ⟨_, otherAfter, otherRun, reached⟩
  have same : ∀ type, type ∈ [TypeRef.declared 14, .declared 15] ↔ type ∈ [TypeRef.declared 15, .declared 14] := by
    simp [or_comm]
  have tables := (claim outerDeclared.host .standard outerDeclared.store _ _ ⟨1⟩ ⟨2⟩ after otherAfter same run
    otherRun).2
  have equal := FinMap.isSome_eq_of_rel (tables ["Game", "Outer", "Inner"])
  rw [hidden, reached] at equal
  cases equal

end Realm

end ScriptBridge
