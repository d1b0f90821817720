import ScriptBridge.Proofs.Realms.Reading
import ScriptBridge.Proofs.Steps.Untouched
import ScriptBridge.Proofs.Tables.Fields

/-!
# The slots that fields are accessed by

Reads and writes of a name walk through tables of their own and respect different things
on the way: a method takes a name from a read but not from a write, and an entry of the
table of a type takes it from the read of a static field. Where a walk comes to a slot of
a field, the operation is a call of that slot.
-/

namespace ScriptBridge

open Bridge

/-- What a member is passed of the target that it is read from or written through: an instance, but no type. -/
def ScriptValue.asReceiver : ScriptValue → List ScriptValue
  | .proxy standIn => [.proxy standIn]
  | _ => []

/-- Reading a name of a live instance of a bound type, or of the table of a type, comes to the getter of a field. -/
inductive Context.GetsField (host : Host) (context : Context) (field : Field) (name : String) :
    ScriptValue → MemberSlot → Prop
  | onInstance {proxy : Proxy} {passed rest : List TypeRef} {binding : TypeBinding} {slot : MemberSlot}
      (ofInstance : field.definition.isStatic = false)
      (live : context.cache.owns proxy = true)
      (isBound : context.isBound proxy.type = true)
      (chain : context.lookupChain host.system proxy.type = passed ++ field.owner :: rest)
      (others : ∀ type ∈ passed, ∀ other, context.binding? type = some other →
        other.PassesOver host context type name)
      (bound : context.binding? field.owner = some binding)
      (noMethod : binding.slot? .methods name = none)
      (found : binding.slot? .getters name = some slot) : GetsField host context field name (.proxy proxy) slot
  | onType {id : TableId} {type : TypeRef} {passed rest : List TypeRef} {binding : TypeBinding} {slot : MemberSlot}
      (ofType : field.definition.isStatic = true)
      (stands : context.heap.kind? id = some (.type type))
      (vacant : context.heap.get id (.string name) = .nil)
      (chain : context.lookupChain host.system type = passed ++ field.owner :: rest)
      (others : ∀ type ∈ passed, ∀ other, context.binding? type = some other →
        other.slot? .classMethods name = none ∧ other.slot? .classGetters name = none)
      (clear : ∀ type ∈ (passed ++ [field.owner]).tail, ∀ other, context.binding? type = some other →
        context.heap.get other.classTable (.string name) = .nil)
      (bound : context.binding? field.owner = some binding)
      (noMethod : binding.slot? .classMethods name = none)
      (found : binding.slot? .classGetters name = some slot) : GetsField host context field name (.table id) slot

/-- Writing a name of a live instance of a bound type, or of the table of a type, comes to the setter of a field. -/
inductive Context.SetsField (host : Host) (context : Context) (field : Field) (name : String) :
    ScriptValue → MemberSlot → Prop
  | onInstance {proxy : Proxy} {passed rest : List TypeRef} {binding : TypeBinding} {slot : MemberSlot}
      (ofInstance : field.definition.isStatic = false)
      (live : context.cache.owns proxy = true)
      (isBound : context.isBound proxy.type = true)
      (chain : context.lookupChain host.system proxy.type = passed ++ field.owner :: rest)
      (others : ∀ type ∈ passed, ∀ other, context.binding? type = some other →
        ∀ value, other.Ignores host context type value (.string name))
      (bound : context.binding? field.owner = some binding)
      (found : binding.slot? .setters name = some slot) : SetsField host context field name (.proxy proxy) slot
  | onType {id : TableId} {type : TypeRef} {passed rest : List TypeRef} {binding : TypeBinding} {slot : MemberSlot}
      (ofType : field.definition.isStatic = true)
      (stands : context.heap.kind? id = some (.type type))
      (vacant : context.heap.get id (.string name) = .nil)
      (chain : context.lookupChain host.system type = passed ++ field.owner :: rest)
      (others : ∀ type ∈ passed, ∀ other, context.binding? type = some other →
        other.slot? .classSetters name = none)
      (bound : context.binding? field.owner = some binding)
      (found : binding.slot? .classSetters name = some slot) : SetsField host context field name (.table id) slot

/-- A live instance whose type inherits an instance field, or a table of a type for a static one. -/
inductive Context.Reaches (host : Host) (context : Context) (field : Field) : ScriptValue → Prop
  | onInstance {proxy : Proxy} (ofInstance : field.definition.isStatic = false)
      (live : context.cache.owns proxy = true) (isBound : context.isBound proxy.type = true)
      (inherited : field.owner ∈ context.lookupChain host.system proxy.type) : Reaches host context field (.proxy proxy)
  | onType (id : TableId) (ofType : field.definition.isStatic = true) : Reaches host context field (.table id)

namespace Context

variable {host : Host} {before after context : Context} {place : MemberTable × String} {field : Field} {name : String}
  {target : ScriptValue} {slot : MemberSlot}

/-- How a text fits a type is the same in every context. -/
theorem fits_string (context other : Context) (system : TypeSystem) (text : String) (type : TypeRef) :
    context.fits system (.string text) type = other.fits system (.string text) type := by
  simp [fits, compatibility, objectCompatibility]

/-- A binding passes over a name still once slots for writing have changed. -/
theorem SameBut.passesOver (same : before.SameBut host place after)
    (forWriting : place.1 = .setters ∨ place.1 = .classSetters) {type : TypeRef} {binding other : TypeBinding}
    (alike : binding.SameBut place other) (passes : binding.PassesOver host before type name) :
    other.PassesOver host after type name where
  methods := by
    rw [TypeBinding.slot?, alike.slots _ (by rintro rfl; simp at forWriting)]
    exact passes.methods
  getters := by
    rw [TypeBinding.slot?, alike.slots _ (by rintro rfl; simp at forWriting)]
    exact passes.getters
  elements := passes.elements
  indexers getter given := by
    rw [alike.rest] at given
    rcases passes.indexers getter given with ⟨properties, registered, foreign⟩
    refine ⟨properties, same.callables _ _ registered, fun property listed gets index takes => ?_⟩
    exact (fits_string after before _ _ _).trans (foreign property listed gets index takes)

/-- Reading comes to the same getter once slots for writing have changed. -/
theorem GetsField.of_sameBut (gets : before.GetsField host field name target slot)
    (same : before.SameBut host place after) (forWriting : place.1 = .setters ∨ place.1 = .classSetters)
    (owned : ∀ proxy, before.cache.owns proxy = true → after.cache.owns proxy = true) :
    after.GetsField host field name target slot := by
  have unchanged {binding other : TypeBinding} (alike : binding.SameBut place other) {table : MemberTable}
      (different : place.1 ≠ table) : other.slot? table name = binding.slot? table name :=
    alike.slots _ (by rintro rfl; exact different rfl)
  cases gets with
  | @onInstance proxy passed rest binding slot ofInstance live isBound chain others bound noMethod found =>
      rcases same.kept _ binding bound with ⟨other, boundToo, alike⟩
      refine .onInstance ofInstance (owned proxy live) ((same.isBound_eq _).trans isBound)
        ((same.lookupChain_eq _).trans chain) (fun type listed later laterBound => ?_) boundToo ?_ ?_
      · rcases same.added type later laterBound with ⟨earlier, earlierBound, alikeToo⟩
        exact same.passesOver forWriting alikeToo (others type listed earlier earlierBound)
      · rw [unchanged alike (by rintro equal; simp [equal] at forWriting), noMethod]
      · rw [unchanged alike (by rintro equal; simp [equal] at forWriting), found]
  | @onType id type passed rest binding slot ofType stands vacant chain others clear bound noMethod found =>
      rcases same.kept _ binding bound with ⟨other, boundToo, alike⟩
      refine .onType ofType (by rw [same.heap, stands]) (by rw [same.heap, vacant])
        ((same.lookupChain_eq _).trans chain) (fun type listed later laterBound => ?_)
        (fun type listed later laterBound => ?_) boundToo ?_ ?_
      · rcases same.added type later laterBound with ⟨earlier, earlierBound, alikeToo⟩
        rw [unchanged alikeToo (by rintro equal; simp [equal] at forWriting),
          unchanged alikeToo (by rintro equal; simp [equal] at forWriting)]
        exact others type listed earlier earlierBound
      · rcases same.added type later laterBound with ⟨earlier, earlierBound, alikeToo⟩
        rw [same.heap, alikeToo.rest]
        exact clear type listed earlier earlierBound
      · rw [unchanged alike (by rintro equal; simp [equal] at forWriting), noMethod]
      · rw [unchanged alike (by rintro equal; simp [equal] at forWriting), found]

theorem GetsField.slot? (gets : context.GetsField host field name target slot) :
    ∃ binding, context.binding? field.owner = some binding ∧
      binding.slots.get? (field.member name .fieldGet).place = some slot := by
  cases gets with
  | onInstance ofInstance live isBound chain others bound noMethod found =>
      exact ⟨_, bound, by rwa [CatalogMember.place, Field.member, ofInstance]⟩
  | onType ofType stands vacant chain others clear bound noMethod found =>
      exact ⟨_, bound, by rwa [CatalogMember.place, Field.member, ofType]⟩

theorem SetsField.slot? (sets : context.SetsField host field name target slot) :
    ∃ binding, context.binding? field.owner = some binding ∧
      binding.slots.get? (field.member name .fieldSet).place = some slot := by
  cases sets with
  | onInstance ofInstance live isBound chain others bound found =>
      exact ⟨_, bound, by rwa [CatalogMember.place, Field.member, ofInstance]⟩
  | onType ofType stands vacant chain others bound found =>
      exact ⟨_, bound, by rwa [CatalogMember.place, Field.member, ofType]⟩

theorem GetsField.inReach (gets : context.GetsField host field name target slot) :
    context.Reaches host field target := by
  cases gets with
  | onInstance ofInstance live isBound chain => exact .onInstance ofInstance live isBound (by simp [chain])
  | onType ofType => exact .onType _ ofType

theorem SetsField.inReach (sets : context.SetsField host field name target slot) :
    context.Reaches host field target := by
  cases sets with
  | onInstance ofInstance live isBound chain => exact .onInstance ofInstance live isBound (by simp [chain])
  | onType ofType => exact .onType _ ofType

/-- An instance field is read from the instance that it was written through, a static one from any table. -/
theorem Reaches.eq_or {source : ScriptValue} (reaches : context.Reaches host field target)
    (reachesToo : context.Reaches host field source) (same : field.definition.isStatic = false → source = target) :
    source = target ∨ ∃ id other, target = .table id ∧ source = .table other := by
  cases reaches with
  | onInstance ofInstance => exact .inl (same ofInstance)
  | onType id ofType =>
      cases reachesToo with
      | onInstance ofInstance =>
          rw [ofInstance] at ofType
          cases ofType
      | onType other => exact .inr ⟨id, other, rfl, rfl⟩

end Context

namespace Host

variable {host : Host} {world begun : World} {field : Field} {name : String} {target : ScriptValue} {slot : MemberSlot}

/-- Making a target ready changes nothing that was there. -/
theorem untouched_ready (consistent : world.context.cache.Consistent)
    (ready : exec (host.ready target) world = (.ok (), begun)) :
    begun.context.cache.Consistent ∧ world.Untouched begun :=
  (keptBy_ready (respects_untouched host world) target).holds_of_ok (Invariant.untouched_start consistent) ready

theorem cataloged_ready (listed : world.context.Cataloged host.system)
    (ready : exec (host.ready target) world = (.ok (), begun)) : begun.context.Cataloged host.system :=
  (keptBy_ready (respects_cataloging host).toRespectsPreparation target).holds_of_ok listed ready

/-- What a proxy stands for once it is ready, it stood for before. -/
theorem resolve?_of_ready {proxy : Proxy} {value : HostValue} (consistent : world.context.cache.Consistent)
    (ready : exec (host.ready (.proxy proxy)) world = (.ok (), begun))
    (live : begun.context.cache.resolve? proxy = some value) : world.context.cache.resolve? proxy = some value := by
  rcases exec_bind_eq_ok ready with ⟨_, alive, reading, -⟩
  rcases exec_discard_eq_ok reading with ⟨read, reading⟩
  rcases resolve?_of_liveValue reading with ⟨resolved, -⟩
  rcases IdentityCache.resolve?_eq_some_iff.mp resolved with ⟨own, entry, found, -⟩
  rcases IdentityCache.resolve?_eq_some_iff.mp live with ⟨-, later, present, rfl⟩
  obtain rfl := Option.some.inj (((untouched_ready consistent ready).2.proxies _ _ found).symm.trans present)
  exact IdentityCache.resolve?_eq_some_iff.mpr ⟨own, entry, found, rfl⟩

theorem exec_ready_of_getsField (gets : world.context.GetsField host field name target slot) :
    exec (host.ready target) world = (.ok (), world) := by
  cases gets with
  | onInstance _ live isBound => exact exec_ready_of_live live isBound
  | onType => rfl

/-- A read that comes to the getter of a field is a call of the getter. -/
theorem exec_index_of_getsField (wired : begun.context.Wired host.system)
    (ready : exec (host.ready target) world = (.ok (), begun))
    (gets : begun.context.GetsField host field name target slot) :
    exec (host.index target (.string name)) world =
      exec (firstResult host.invoke slot.handle target.asReceiver) begun := by
  cases gets with
  | onInstance ofInstance live isBound chain others bound noMethod found =>
      rcases exec_index_of_passed wired ready live isBound chain others with ⟨read, same⟩
      rw [same, readAlong, exec_bind_of_ok (exec_context begun)]
      simp only [bound, instanceMember?, noMethod, found]
      rfl
  | onType ofType stands vacant chain others clear bound noMethod found =>
      obtain rfl := (Prod.mk.inj ready).2
      refine exec_index_of_found stands vacant ?_
      rw [chain, exec_readStaticAlong_append true others (by simpa using clear) bound]
      simp only [noMethod, found]
      rfl

/-- A write that comes to the setter of a field is a call of the setter. -/
theorem exec_assign_of_setsField (wired : begun.context.Wired host.system)
    (ready : exec (host.ready target) world = (.ok (), begun))
    (sets : begun.context.SetsField host field name target slot) (item : ScriptValue) :
    exec (host.assign target (.string name) item) world =
      exec (discard (host.invoke slot.handle (target.asReceiver ++ [item]))) begun := by
  cases sets with
  | @onInstance proxy passed rest binding slot ofInstance live isBound chain others bound found =>
      rcases Option.isSome_iff_exists.mp live with ⟨value, resolved⟩
      rcases exec_bind_eq_ok ready with ⟨_, alive, reading, binds⟩
      rcases exec_discard_eq_ok reading with ⟨read, reading⟩
      have fits := fun type (listed : type ∈ passed) =>
        Context.fits_of_lookupChain wired resolved isBound (by rw [chain]; exact List.mem_append_left _ listed)
      rw [assign, assignBy, assignInstance, exec_bind_of_ok reading, exec_bind_of_ok binds,
        exec_bind_of_ok (exec_context begun), chain, exec_writeAlong_append wired resolved fits
          (fun type listed other bound => others type listed other bound read), writeAlong,
        exec_bind_of_ok (exec_context begun)]
      simp only [bound, ScriptValue.asString?, Option.bind_some, found]
      rfl
  | @onType id type passed rest binding slot ofType stands vacant chain others bound found =>
      obtain rfl := (Prod.mk.inj ready).2
      have first : staticSetter? world.context name (world.context.lookupChain host.system type) = some slot := by
        have none : (passed.findSome? fun type =>
            (world.context.binding? type).bind fun binding => binding.slot? .classSetters name) = none := by
          refine List.findSome?_eq_none_iff.mpr fun type listed => Option.bind_eq_none_iff.mpr ?_
          exact others type listed
        rw [staticSetter?, chain, List.findSome?_append, none, Option.none_or, List.findSome?_cons, bound,
          Option.bind_some, found]
      rw [assign, assignBy, assignTable]
      simp only [ScriptKey.ofValue?]
      rw [exec_bind_of_ok (exec_context world)]
      simp only [TableHeap.typeOf?, stands, vacant, ScriptValue.isNil, decide_true, if_true, assignType]
      rw [exec_bind_of_ok (exec_context world)]
      simp only [ScriptValue.asString?, Option.bind_some, first]
      rfl

end Host

end ScriptBridge
