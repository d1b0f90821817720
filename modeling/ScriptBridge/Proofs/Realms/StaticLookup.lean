import ScriptBridge.Proofs.Namespaces.Reaching
import ScriptBridge.Proofs.Realms.Lookup

/-!
# Where a lookup in the table of a type stops

A read of the table of a type goes along the chain of the type as well. It stops at the
first type whose table has an entry of the name, or which has a static member of the name.
If there is none, the name can still be that of a type that is nested in the type.
-/

namespace ScriptBridge

open Bridge

namespace Context

/-- The type is bound, and its table has an entry of a name, or the type has a static member of the name. -/
def shows (context : Context) (name : String) (type : TypeRef) : Bool :=
  (context.binding? type).any fun binding =>
    !(context.heap.get binding.classTable (.string name)).isNil ||
      ((binding.slot? .classMethods name).isSome || (binding.slot? .classGetters name).isSome)

/-- A read of a name from an instance of a type comes to a type that offers the name. -/
def finds (host : Host) (context : Context) (type : TypeRef) (value : HostValue) (name : String) : Bool :=
  (context.lookupChain host.system type).any (context.reads host value name)

/-- A read of a name from the table of a type comes to a type that shows the name, or to a nested type. -/
def findsStatic (host : Host) (context : Context) (type : TypeRef) (name : String) : Bool :=
  (context.lookupChain host.system type).any (context.shows name) ||
    (host.registry.get? (host.fullName type ++ "+" ++ name)).isSome

end Context

namespace Host

variable {host : Host} {world : World} {type : TypeRef} {binding : TypeBinding} {name : String}

/-- What no type of the chain of a live instance offers reads as nil. -/
theorem exec_index_of_not_finds {proxy : Proxy} {value : HostValue} (wired : world.context.Wired host.system)
    (live : world.context.cache.resolve? proxy = some value) (bound : world.context.isBound proxy.type = true)
    (notFound : world.context.finds host proxy.type value name = false) :
    exec (host.index (.proxy proxy) (.string name)) world = (.ok .nil, world) := by
  rw [Context.finds, List.any_eq_false, ← List.find?_eq_none] at notFound
  rw [exec_index_eq_first wired live bound, notFound]
  rfl

/-- What a read of a name from the table of a type comes to if a type decides; without any, a nested type can. -/
def readShown (host : Host) (type : TypeRef) (name : String) (decides : Option TypeRef) :
    Bridge ScriptError ScriptValue := do
  match ← readStaticAlong host.invoke name false decides.toList with
  | some found => return found
  | none =>
      match host.registry.get? (host.fullName type ++ "+" ++ name) with
      | some nested => Bridge.asScript (host.loadClass nested)
      | none => return .nil

section Chains

variable {invoke : Invoker}

/-- A type that does not show the name is passed over. -/
theorem exec_readStaticAlong_of_not_shows (passes : world.context.shows name type = false) (rest : List TypeRef) :
    exec (readStaticAlong invoke name false (type :: rest)) world =
      exec (readStaticAlong invoke name false rest) world := by
  rw [readStaticAlong, exec_bind_of_ok (exec_context world)]
  cases bound : world.context.binding? type with
  | none => rfl
  | some binding =>
      simp only [Context.shows, bound, Option.any_some, Bool.or_eq_false_iff, Bool.not_eq_false',
        Option.isSome_eq_false_iff, Option.isNone_iff_eq_none] at passes
      rcases passes with ⟨noEntry, noMethod, noGetter⟩
      simp only [Bool.false_eq_true, if_false, noEntry, noMethod, noGetter, Bool.not_true]

/-- A type that shows the name decides; the types behind it are not reached. -/
theorem exec_readStaticAlong_of_shows (shows : world.context.shows name type = true) (rest : List TypeRef) :
    exec (readStaticAlong invoke name false (type :: rest)) world =
      exec (readStaticAlong invoke name false [type]) world := by
  rw [readStaticAlong, readStaticAlong, exec_bind_of_ok (exec_context world), exec_bind_of_ok (exec_context world)]
  cases bound : world.context.binding? type with
  | none =>
      rw [Context.shows, bound] at shows
      cases shows
  | some binding =>
      cases entry : (world.context.heap.get binding.classTable (.string name)).isNil with
      | false => simp only [Bool.false_eq_true, if_false, entry, Bool.not_false, if_true]
      | true =>
          cases method : binding.slot? .classMethods name with
          | some slot => simp only [method]
          | none =>
              cases getter : binding.slot? .classGetters name with
              | some slot => simp only [method, getter]
              | none => simp [Context.shows, bound, entry, method, getter] at shows

/-- The first type of a chain that shows a name decides on it. -/
theorem exec_readStaticAlong_eq_first (chain : List TypeRef) :
    exec (readStaticAlong invoke name false chain) world =
      exec (readStaticAlong invoke name false (chain.find? (world.context.shows name)).toList) world := by
  induction chain with
  | nil => rfl
  | cons type rest ih =>
      cases shows : world.context.shows name type with
      | true =>
          rw [List.find?_cons_of_pos shows]
          exact exec_readStaticAlong_of_shows shows rest
      | false =>
          rw [List.find?_cons_of_neg (Bool.eq_false_iff.mp shows), exec_readStaticAlong_of_not_shows shows]
          exact ih

/-- The table of the first type was looked at before, and had no entry. -/
theorem exec_readStaticAlong_of_vacant (bound : world.context.binding? type = some binding)
    (vacant : (world.context.heap.get binding.classTable (.string name)).isNil = true) (rest : List TypeRef) :
    exec (readStaticAlong invoke name true (type :: rest)) world =
      exec (readStaticAlong invoke name false (type :: rest)) world := by
  rw [readStaticAlong, readStaticAlong, exec_bind_of_ok (exec_context world), exec_bind_of_ok (exec_context world),
    bound]
  simp only [if_true, Bool.false_eq_true, if_false, vacant]
  rfl

end Chains

variable (bound : world.context.binding? type = some binding)
  (stands : world.context.heap.kind? binding.classTable = some (.type type))

include bound stands

/-- The first type of its chain that shows a name decides what is read from the table of a bound type. -/
theorem exec_index_classTable_eq_first :
    exec (host.index (.table binding.classTable) (.string name)) world =
      exec (host.readShown type name
        ((world.context.lookupChain host.system type).find? (world.context.shows name))) world := by
  have chain : ∃ rest, world.context.lookupChain host.system type = type :: rest := ⟨_, rfl⟩
  rcases chain with ⟨rest, chain⟩
  cases vacant : (world.context.heap.get binding.classTable (.string name)).isNil with
  | false =>
      have shows : world.context.shows name type = true := by simp [Context.shows, bound, vacant]
      rw [chain, List.find?_cons_of_pos shows, index, indexBy, indexTable, exec_bind_of_ok (exec_context world),
        readShown]
      simp only [ScriptKey.ofValue?, Option.elim_some, vacant, Option.toList_some, readStaticAlong, bind_assoc,
        exec_bind_of_ok (exec_context world), bound]
      simp [vacant]
  | true =>
      have missing : world.context.heap.get binding.classTable (.string name) = .nil := by
        simpa [ScriptValue.isNil] using vacant
      rw [exec_index_of_nil stands missing]
      simp only [indexType, ScriptValue.asString?, exec_bind_of_ok (exec_context world), chain]
      have alike : exec (readStaticAlong host.invoke name true (type :: rest)) world =
          exec (readStaticAlong host.invoke name false ((type :: rest).find? (world.context.shows name)).toList)
            world := by
        rw [exec_readStaticAlong_of_vacant bound vacant, exec_readStaticAlong_eq_first]
      rw [readShown]
      exact exec_bind_congr alike _

/-- What is found nowhere reads as nil. -/
theorem exec_index_classTable_of_not_findsStatic (notFound : world.context.findsStatic host type name = false) :
    exec (host.index (.table binding.classTable) (.string name)) world = (.ok .nil, world) := by
  rw [Context.findsStatic, Bool.or_eq_false_iff, Option.isSome_eq_false_iff, Option.isNone_iff_eq_none,
    List.any_eq_false, ← List.find?_eq_none] at notFound
  rw [exec_index_classTable_eq_first bound stands, notFound.1, readShown, notFound.2]
  rfl

omit bound stands

/--
The first type of the chain of a type that has a name decides what is read, from live instances of the type and from its
table. What no type has reads as nil; in the table, it can still be the name of a nested type.
-/
structure DecidedByFirst (host : Host) (type : TypeRef) (table : TableId) (world : World) : Prop where
  instances : ∀ proxy value name, proxy.type = type → world.context.cache.resolve? proxy = some value →
    exec (host.index (.proxy proxy) (.string name)) world = exec (host.readFrom proxy value name
      ((world.context.lookupChain host.system type).find? (world.context.reads host value name))) world
  notFound : ∀ proxy value name, proxy.type = type → world.context.cache.resolve? proxy = some value →
    world.context.finds host type value name = false →
    exec (host.index (.proxy proxy) (.string name)) world = (.ok .nil, world)
  statics : ∀ name, exec (host.index (.table table) (.string name)) world =
    exec (host.readShown type name
      ((world.context.lookupChain host.system type).find? (world.context.shows name))) world
  notFoundStatic : ∀ name, world.context.findsStatic host type name = false →
    exec (host.index (.table table) (.string name)) world = (.ok .nil, world)

theorem decidedByFirst_of_wired (wired : world.context.Wired host.system)
    (bound : world.context.binding? type = some binding) : host.DecidedByFirst type binding.classTable world := by
  have stands := wired.stands type _ (wired.placed type binding bound)
  refine ⟨?_, ?_, fun _ => exec_index_classTable_eq_first bound stands,
    fun _ => exec_index_classTable_of_not_findsStatic bound stands⟩
  · rintro proxy value name rfl live
    exact exec_index_eq_first wired live (Option.isSome_of_mem bound)
  · rintro proxy value name rfl live missing
    exact exec_index_of_not_finds wired live (Option.isSome_of_mem bound) missing

end Host

end ScriptBridge
