import ScriptBridge.Proofs.Identity.Consistency
import ScriptBridge.Proofs.Tables.Continuing

/-!
# Entries of the tables of types

What binding a type hands out is written into the table of the type. Whatever is
bound on the way is written into other tables, and no proxy is released while types
are bound: so the entries are there when the type has been bound to the end.
-/

namespace ScriptBridge

/-- The proxy is live and of the identity of the value; if there is none, it is a proxy of just the value. -/
def IdentityCache.Represents (cache : IdentityCache) (proxy : Proxy) (value : HostValue) : Prop :=
  proxy.tag = cache.tag ∧
    ∃ entry, cache.lookup? proxy.key = some entry ∧ entry.identity = Identity.of? value ∧
      (Identity.of? value = none → entry.value = value)

namespace IdentityCache

variable {cache : IdentityCache} {proxy : Proxy} {value : HostValue}

theorem Consistent.represents (consistent : cache.Consistent) (value : HostValue) (type : TypeRef) :
    (cache.represent value type).2.Represents (cache.represent value type).1 value := by
  rcases represent_cases cache value type with ⟨identity, key, entry, ofValue, named, live, hit⟩ | ⟨-, miss⟩
  · rcases (consistent.byIdentity_iff identity key).mp named with ⟨found, alsoLive, made⟩
    rcases Option.some.inj (live.symm.trans alsoLive) with rfl
    rw [hit]
    refine ⟨rfl, entry, live, made.trans ofValue.symm, fun without => ?_⟩
    rw [ofValue] at without
    cases without
  · rw [miss]
    refine ⟨fill_proxy_tag.trans fill_tag.symm, entryFor value type, ?_, rfl, fun _ => rfl⟩
    rw [lookup?_fill consistent.nextIsVacant, if_pos rfl]

theorem Represents.represent (represents : cache.Represents proxy value) (consistent : cache.Consistent)
    (other : HostValue) (type : TypeRef) : (cache.represent other type).2.Represents proxy value := by
  rcases represents with ⟨sameTag, entry, live, identity, own⟩
  rcases represent_cases cache other type with ⟨_, _, _, _, _, _, hit⟩ | ⟨-, miss⟩
  · rw [hit]
    exact ⟨sameTag, entry, live, identity, own⟩
  · rw [miss]
    refine ⟨sameTag.trans fill_tag.symm, entry, ?_, identity, own⟩
    rw [lookup?_fill consistent.nextIsVacant, if_neg, live]
    intro same
    rw [same, fill_key, consistent.lookup?_next] at live
    cases live

end IdentityCache

theorem HostValue.isData_of_toScript? {value : HostValue} {simple : ScriptValue}
    (known : value.toScript? = some simple) (present : value.isNull = false) : simple.isData = true := by
  unfold toScript? at known
  split at known
  case h_1 => cases present
  case h_9 =>
    rcases Option.map_eq_some_iff.mp known with ⟨handle, -, rfl⟩
    rfl
  case h_10 => cases known
  all_goals
    rcases Option.some.inj known with rfl
    rfl

/-- The script value is that of the host value: itself, or a proxy of it. -/
def IdentityCache.Shows (cache : IdentityCache) (shown : ScriptValue) (value : HostValue) : Prop :=
  match value.toScript? with
  | some simple => shown = simple
  | none => ∃ proxy, shown = .proxy proxy ∧ cache.Represents proxy value

namespace IdentityCache.Shows

variable {cache : IdentityCache} {shown : ScriptValue} {value : HostValue}

theorem isData (shows : cache.Shows shown value) (present : value.isNull = false) : shown.isData = true := by
  rw [Shows] at shows
  split at shows
  next simple known => exact shows ▸ HostValue.isData_of_toScript? known present
  next =>
    rcases shows with ⟨proxy, rfl, -⟩
    rfl

theorem isData_eq_false (shows : cache.Shows shown value) (isNull : value.isNull = true) : shown.isData = false := by
  cases value with
  | null =>
      rcases (show shown = .nil from shows) with rfl
      rfl
  | _ => cases isNull

theorem represent (shows : cache.Shows shown value) (consistent : cache.Consistent) (added : HostValue)
    (type : TypeRef) : (cache.represent added type).2.Shows shown value := by
  rw [Shows] at shows ⊢
  split at shows
  next => exact shows
  next =>
    rcases shows with ⟨proxy, same, represents⟩
    exact ⟨proxy, same, represents.represent consistent added type⟩

end IdentityCache.Shows

/-- Under each name of a map, the table of a type has the script value of the value there, and no data for null. -/
structure Context.Displays (context : Context) (type : TypeRef) (table : TableId)
    (shown : FinMap String HostValue) : Prop where
  placed : context.namespaces.table? type = some table
  stands : context.namespaces.Stands context.heap
  consistent : context.cache.Consistent
  entries : ∀ name value, shown.get? name = some value → value.isNull = false →
    context.cache.Shows (context.heap.get table (.string name)) value
  blanks : ∀ name value, shown.get? name = some value → value.isNull = true →
    (context.heap.get table (.string name)).isData = false

namespace Context.Displays

variable {context after : Context} {type other : TypeRef} {table : TableId} {shown : FinMap String HostValue}
  {value : HostValue}

theorem nothing (placed : context.namespaces.table? type = some table)
    (stands : context.namespaces.Stands context.heap) (consistent : context.cache.Consistent) :
    context.Displays type table .empty :=
  ⟨placed, stands, consistent, fun _ _ impossible => (by cases impossible), fun _ _ impossible => (by cases impossible)⟩

theorem of_same (displays : context.Displays type table shown) (namespaces : after.namespaces = context.namespaces)
    (heap : after.heap = context.heap) (cache : after.cache = context.cache) :
    after.Displays type table shown where
  placed := by rw [namespaces]; exact displays.placed
  stands := by rw [namespaces, heap]; exact displays.stands
  consistent := by rw [cache]; exact displays.consistent
  entries := by rw [heap, cache]; exact displays.entries
  blanks := by rw [heap]; exact displays.blanks

theorem modifyBinding (displays : context.Displays type table shown) (change : TypeBinding → TypeBinding) :
    (context.modifyBinding other change).Displays type table shown := by
  rw [Context.modifyBinding_eq]
  exact displays.of_same rfl rfl rfl

theorem represent (displays : context.Displays type table shown) (added : HostValue) (under : TypeRef) :
    { context with cache := (context.cache.represent added under).2 }.Displays type table shown where
  placed := displays.placed
  stands := displays.stands
  consistent := displays.consistent.after (.represent added under)
  entries name value listed present :=
    (displays.entries name value listed present).represent displays.consistent added under
  blanks := displays.blanks

/-- Placing a type writes over nothing that is displayed. -/
theorem place (displays : context.Displays type table shown) {system : TypeSystem} {made : TableId}
    {namespaces : NamespaceTree} {heap : TableHeap}
    (opened : context.namespaces.place system context.heap other = .ok (made, namespaces, heap)) :
    { context with heap := heap, namespaces := namespaces }.Displays type table shown where
  placed := NamespaceTree.table?_place opened displays.placed
  stands := displays.stands.place opened
  consistent := displays.consistent
  entries name value listed present := by
    have shows := displays.entries name value listed present
    exact ((NamespaceTree.place_spec opened).1.data _ _ (shows.isData present)).symm ▸ shows
  blanks name value listed isNull := by
    have kind := displays.stands type table displays.placed
    exact (NamespaceTree.place_spec opened).1.blank _ _ _ kind (displays.blanks name value listed isNull)

/-- A table does not stand for two types. -/
theorem ne_of_placed (displays : context.Displays type table shown) {elsewhere : TableId} (different : other ≠ type)
    (placed : context.namespaces.table? other = some elsewhere) : table ≠ elsewhere := by
  rintro rfl
  have kind := displays.stands type table displays.placed
  rw [displays.stands other table placed] at kind
  exact different (TableKind.type.inj (Option.some.inj kind))

/-- What is written into the table of another type goes elsewhere. -/
theorem writeOther (displays : context.Displays type table shown) {elsewhere : TableId} (different : other ≠ type)
    (placed : context.namespaces.table? other = some elsewhere) (key : ScriptKey) (written : ScriptValue) :
    { context with heap := context.heap.set elsewhere key written }.Displays type table shown where
  placed := displays.placed
  stands := displays.stands.set elsewhere key written
  consistent := displays.consistent
  entries name value listed present := by
    rw [TableHeap.get_set_of_ne _ (displays.ne_of_placed different placed)]
    exact displays.entries name value listed present
  blanks name value listed isNull := by
    rw [TableHeap.get_set_of_ne _ (displays.ne_of_placed different placed)]
    exact displays.blanks name value listed isNull

theorem isSome_table? (displays : context.Displays type table shown) : (context.heap.table? table).isSome := by
  have kind := displays.stands type table displays.placed
  rw [TableHeap.kind?, Option.map_eq_some_iff] at kind
  exact Option.isSome_iff_exists.mpr (kind.imp fun _ both => both.1)

/-- What is written into the table itself is displayed in place of what was there. -/
theorem write (displays : context.Displays type table shown) {entry : ScriptValue}
    (shows : context.cache.Shows entry value) (name : String) :
    { context with heap := context.heap.set table (.string name) entry }.Displays type table
      (shown.insert name value) where
  placed := displays.placed
  stands := displays.stands.set table (.string name) entry
  consistent := displays.consistent
  entries other found listed present := by
    rw [FinMap.get?_insert] at listed
    rw [TableHeap.get_set _ displays.isSome_table?]
    split at listed
    next same =>
      rcases Option.some.inj listed with rfl
      rwa [if_pos ⟨rfl, congrArg _ same⟩]
    next apart =>
      rw [if_neg fun same => apart (ScriptKey.string.inj same.2)]
      exact displays.entries other found listed present
  blanks other found listed isNull := by
    rw [FinMap.get?_insert] at listed
    rw [TableHeap.get_set _ displays.isSome_table?]
    split at listed
    next same =>
      rcases Option.some.inj listed with rfl
      rw [if_pos ⟨rfl, congrArg _ same⟩]
      exact shows.isData_eq_false isNull
    next apart =>
      rw [if_neg fun same => apart (ScriptKey.string.inj same.2)]
      exact displays.blanks other found listed isNull

end Context.Displays

namespace Host

open Bridge

/-- A type is bound, something holds of its binding, and its table displays a map. -/
def displaying (type : TypeRef) (good : TypeBinding → Prop) (table : TableId)
    (shown : FinMap String HostValue) : Invariant where
  holds world := (Invariant.boundAs type good).holds world ∧ world.context.Displays type table shown
  excuses := fun _ => False

variable {host : Host} {type other : TypeRef} {good : TypeBinding → Prop} {table : TableId}
  {shown : FinMap String HostValue} {world after : World}

theorem displays_onlyRegistered (displays : world.context.Displays type table shown)
    (registered : world.OnlyRegistered after) : after.context.Displays type table shown := by
  rw [registered.rest]
  exact displays.of_same rfl rfl rfl

theorem displays_filled {access : MemberAccess} {mode : BindingMode} {catalog : Catalog}
    {run : Except BindError Unit × World} (displays : world.context.Displays type table shown)
    (filled : host.Filled other access mode catalog world run) : run.2.context.Displays type table shown := by
  cases filled with
  | failed registered => exact displays_onlyRegistered displays registered
  | filled registered => exact (displays_onlyRegistered displays registered).modifyBinding _

theorem displays_constructed {run : Except BindError Unit × World}
    (displays : world.context.Displays type table shown) (constructed : host.Constructed other world run) :
    run.2.context.Displays type table shown := by
  cases constructed with
  | absent => exact displays
  | failed registered => exact displays_onlyRegistered displays registered
  | constructed registered => exact (displays_onlyRegistered displays registered).modifyBinding _

theorem installs_displaying (different : other ≠ type) :
    host.Installs (displaying type good table shown) other where
  collect _ := fun ⟨bound, displays⟩ => ⟨bound, displays.of_same rfl rfl rfl⟩
  represent _ _ := fun ⟨bound, displays⟩ => ⟨bound, displays.represent _ _⟩
  writeEntry _ _ placed := fun ⟨bound, displays⟩ => ⟨bound, displays.writeOther different placed _ _⟩
  register _ := fun ⟨bound, displays⟩ => ⟨bound, displays.of_same rfl rfl rfl⟩
  filled known holds filled :=
    ⟨(installs_boundAs fun same => absurd same different).filled known holds.1 filled,
      displays_filled holds.2 filled⟩

theorem displaying_constructed {run : Except BindError Unit × World} (different : other ≠ type)
    (holds : (displaying type good table shown).holds world) (constructed : host.Constructed other world run) :
    (displaying type good table shown).holds run.2 :=
  ⟨boundAs_constructed different holds.1 constructed, displays_constructed holds.2 constructed⟩

theorem displaying_opened {mode : BindingMode} {run : Except BindError TableId × World} (different : other ≠ type)
    (holds : (displaying type good table shown).holds world) (opened : host.Opened other mode world run) :
    (displaying type good table shown).holds run.2 := by
  refine ⟨boundAs_opened different holds.1 opened, ?_⟩
  cases opened with
  | failed => exact holds.2
  | opened placed => exact (holds.2.place placed).of_same rfl rfl rfl

theorem bindsItself_displaying (different : other ≠ type) :
    host.BindsItself (displaying type good table shown) other where
  toInstalls := installs_displaying different
  constructed := displaying_constructed different
  opened := displaying_opened different
  counted := fun ⟨bound, displays⟩ => ⟨bound, displays.of_same rfl rfl rfl⟩

/-- Binding types leaves the table of a type that is bound alone. -/
theorem keptBy_bindWithin_displaying (depth : Nat) (other : TypeRef) (access : MemberAccess)
    (mode : BindingMode) :
    (displaying type good table shown).KeptBy (host.bindWithin depth other access mode) :=
  keptBy_bindWithin (fun _ holds unbound => bindsItself_displaying (ne_of_boundAs holds.1 unbound)) depth
    other access mode

/-- When the binding of a type has just been opened, the type has a bare binding. -/
theorem displaying_of_opened {mode : BindingMode} (stands : world.context.namespaces.Stands world.context.heap)
    (consistent : world.context.cache.Consistent) (opened : host.Opened type mode world (.ok table, after)) :
    (displaying type (· = .bare host.system type mode table) table .empty).holds after := by
  have placedHere := opened.placed
  cases opened with
  | opened placed =>
      exact ⟨⟨_, FinMap.get?_insert_self _ _ _, rfl⟩, .nothing placedHere (stands.place placed) consistent⟩

/-- The script value that is handed out for a host value shows it. -/
theorem displaying_pushBy {depth : Nat} {value : HostValue} {entry : ScriptValue}
    (holds : (displaying type good table shown).holds world)
    (run : exec (pushBy (host.bindWithin depth) value) world = (.ok entry, after)) :
    (displaying type good table shown).holds after ∧ after.context.cache.Shows entry value := by
  rcases exec_pushBy_eq_ok run with ⟨simple, rfl⟩ | ⟨carried, middle, proxied, -, binding, rfl, rfl⟩
  · refine ⟨holds, ?_⟩
    rw [IdentityCache.Shows, simple]
  · have kept : (displaying type good table shown).KeptBy (ensureBoundBy (host.bindWithin depth) carried) :=
      keptBy_ensureBoundBy (keptBy_bindWithin_displaying depth _)
    rcases kept.holds_of_ok holds binding with ⟨bound, displays⟩
    refine ⟨⟨bound, displays.represent _ _⟩, ?_⟩
    rw [IdentityCache.Shows, proxied]
    exact ⟨_, rfl, displays.consistent.represents value _⟩

/-- A value that is handed out is displayed under the name that it is written to. -/
theorem displaying_handOut {depth : Nat} {name : String} {value : HostValue} {entry : ScriptValue}
    {pushed : World} (holds : (displaying type good table shown).holds world)
    (pushing : exec (pushBy (host.bindWithin depth) value) world = (.ok entry, pushed))
    (writing : exec (Bridge.writeEntry table name entry : Bridge BindError Unit) pushed = (.ok (), after)) :
    (displaying type good table (shown.insert name value)).holds after := by
  rcases displaying_pushBy holds pushing with ⟨⟨bound, displays⟩, shows⟩
  rcases (Prod.mk.inj writing).2 with rfl
  exact ⟨bound, displays.write shows name⟩

theorem displaying_installConstants {depth : Nat} {constants : List (String × HostValue)}
    (holds : (displaying type good table shown).holds world)
    (run : exec (installConstants (host.bindWithin depth) table constants) world = (.ok (), after)) :
    (displaying type good table (shown.insertAll constants)).holds after := by
  induction constants generalizing world shown with
  | nil =>
      rcases (Prod.mk.inj run).2 with rfl
      exact holds
  | cons constant rest ih =>
      rcases exec_bind_eq_ok run with ⟨_, written, handing, others⟩
      rcases exec_bind_eq_ok handing with ⟨entry, pushed, pushing, writing⟩
      exact ih (displaying_handOut holds pushing writing) others

/-- Once the hidden members of a type are shown, showing those of others leaves its table alone. -/
theorem keptBy_showHiddenWithin_displaying (depth : Nat) (other : TypeRef) :
    (displaying type (·.showsHidden = true) table shown).KeptBy (host.showHiddenWithin depth other) := by
  refine keptBy_showHiddenWithin ?_ (keptBy_bindWithin_displaying _) ?_ depth other
  · rintro world other found ⟨⟨binding, bound, shows⟩, -⟩ present hides
    refine installs_displaying fun same => ?_
    subst same
    rw [Option.some.inj (present.symm.trans bound), shows] at hides
    cases hides
  · exact fun other ⟨bound, displays⟩ =>
      ⟨boundAs_modifyBinding bound fun _ _ _ _ => rfl, displays.modifyBinding _⟩

end Host

end ScriptBridge
