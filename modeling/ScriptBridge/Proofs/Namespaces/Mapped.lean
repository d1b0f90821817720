import ScriptBridge.Proofs.Namespaces.Orderly
import ScriptBridge.Proofs.Tables.Building

/-!
# The tables of a context that was built up

As long as no name that a bound type hands out is on the way to another bound type, the
tables of a context that only binds types in the configured way are the ways to the bound
types and nothing else, and the table of a type has data only under names that the type
hands out.
-/

namespace ScriptBridge

namespace Host

/-- No name that a type hands out is on the way to another of some types. -/
def WaysClear (host : Host) (access : MemberAccess) (store : HostStore) (among : TypeRef → Prop) : Prop :=
  ∀ type other name rest, among type → among other →
    host.system.segments other = host.system.segments type ++ name :: rest →
    (host.handedOut type access store).get? name = none

/-- A host where no type can be reached by its name, so that no path is that of a namespace. -/
def unregistered (host : Host) : Host := { host with registry := ⟨.empty⟩ }

theorem Leads.of_unregistered {host : Host} {goals : TypeRef → Prop} {path : List String}
    (leads : host.unregistered.Leads goals path) :
    path = [] ∨ ∃ type, goals type ∧ path <+: host.system.segments type := by
  cases leads with
  | root => exact .inl rfl
  | towards goal onPath => exact .inr ⟨_, goal, onPath⟩
  | space registered => cases registered

theorem enters_of_offered {host : Host} {type : TypeRef} {access : MemberAccess} {store : HostStore} {name : String}
    {value : HostValue} (offered : (name, value) ∈ host.offers type access store) :
    host.unregistered.Enters type name := by
  rcases List.mem_append.mp offered with captured | others
  · rcases List.mem_map.mp captured with ⟨constant, listed, same⟩
    rcases Prod.mk.inj same with ⟨rfl, -⟩
    exact .constant listed
  · rcases List.mem_cons.mp others with same | member
    · rcases Prod.mk.inj same with ⟨rfl, -⟩
      exact .marker
    · rw [enumerated] at member
      split at member
      next =>
        rcases List.mem_append.mp member with value | cast
        · rcases List.mem_map.mp value with ⟨found, listed, same⟩
          rcases Prod.mk.inj same with ⟨rfl, -⟩
          exact .member listed
        · rcases Prod.mk.inj (List.mem_singleton.mp cast) with ⟨rfl, -⟩
          exact .cast
      next => cases member

end Host

/--
The tables of a context are on the ways to its bound types, and those of types have data
only under names that the types hand out.
-/
structure Context.Mapped (host : Host) (config : Config) (store : HostStore) (context : Context) : Prop where
  bound : ∀ type table, context.namespaces.table? type = some table → context.isBound type = true
  orderly : Orderly host.unregistered (fun type => context.isBound type = true)
    (fun type table => context.namespaces.table? type = some table) context.namespaces.root context.heap
  names : ∀ type table name, context.namespaces.table? type = some table →
    (context.heap.get table (.string name)).isData = true →
    ((host.handedOut type config.access store).get? name).isSome

namespace Context.Mapped

variable {host : Host} {config : Config} {store : HostStore} {before after : Context} {type : TypeRef}
  {table : TableId}

theorem of_same (mapped : before.Mapped host config store) (bound : ∀ type, after.isBound type = before.isBound type)
    (namespaces : after.namespaces = before.namespaces) (heap : after.heap = before.heap) :
    after.Mapped host config store where
  bound type table := by
    rw [namespaces, bound]
    exact mapped.bound type table
  orderly := by
    simp only [namespaces, heap, bound]
    exact mapped.orderly
  names := by
    rw [namespaces, heap]
    exact mapped.names

/-- Opening the binding of a type makes the way to the type. -/
theorem opened {mode : BindingMode} {world next : World} (mapped : world.context.Mapped host config store)
    (opened : host.Opened type mode world (.ok table, next)) : next.context.Mapped host config store := by
  have bound := @Host.Opened.isBound_iff _ _ _ _ _ _ opened
  cases opened with
  | @opened _ namespaces heap made =>
  rcases NamespaceTree.place_spec made with ⟨grows, tables, -⟩
  have orderly := mapped.orderly.place (fun _ _ => id) made
  refine ⟨fun other found placed => ?_, { orderly.mono ?_ with toShaped := orderly.toShaped.congr ?_ },
    fun other found name placed isData => ?_⟩
  · rw [bound]
    rw [tables] at placed
    split at placed
    next same => exact .inl same
    next => exact .inr (mapped.bound other found placed)
  · intro other either
    exact bound.mpr either.symm
  · intro other found
    constructor
    · intro placed
      rw [tables] at placed
      split at placed
      next same => exact .inr ⟨same, (Option.some.inj placed).symm⟩
      next => exact .inl placed
    · rintro (placed | ⟨rfl, rfl⟩)
      · exact NamespaceTree.table?_place made placed
      · rw [tables, if_pos rfl]
  -- A table that was placed before gets no data, and a new one starts without any.
  · by_cases old : world.context.namespaces.table? other = some found
    · have kind := (mapped.orderly.walk?_segments old).2
      refine mapped.names other found name old ((Bool.not_eq_false _).mp fun blank => ?_)
      rw [grows.blank _ _ _ kind blank] at isData
      cases isData
    · rw [tables] at placed
      split at placed
      next same =>
        rcases Option.some.inj placed with rfl
        subst same
        have absent : world.context.namespaces.table? other = none := by
          rcases NamespaceTree.place_eq_ok made with ⟨present, -, -⟩ | ⟨absent, -⟩
          · exact absurd present old
          · exact absent
        rw [mapped.orderly.blank_place absent made name] at isData
        cases isData
      next => exact absurd placed old

/-- What a type hands out is entered where no table is. -/
theorem entered (mapped : before.Mapped host config store) {among : TypeRef → Prop}
    (included : ∀ type, before.isBound type = true → among type) (clear : host.WaysClear config.access store among)
    (placed : before.namespaces.table? type = some table) {name : String} {value : HostValue}
    (offered : (name, value) ∈ host.offers type config.access store) {shown : ScriptValue}
    (noTable : shown.asTable? = none) :
    { before with heap := before.heap.set table (.string name) shown }.Mapped host config store := by
  have handedOut := Host.isSome_get?_handedOut offered
  have vacant : before.heap.child? table name = none := by
    cases found : before.heap.child? table name with
    | none => rfl
    | some next =>
        have reached := (Shaped.walk?_child (mapped.orderly.walk?_segments placed).1 name).trans found
        rcases (mapped.orderly.leads _ next reached).of_unregistered with impossible | ⟨other, bound, rest, onWay⟩
        · simp at impossible
        · have none := clear type other name rest (included type (mapped.bound type table placed))
            (included other bound) (by rw [← onWay, List.append_assoc]; rfl)
          rw [none] at handedOut
          cases handedOut
  refine ⟨mapped.bound, mapped.orderly.enterVacant placed (Host.enters_of_offered offered) vacant noTable, ?_⟩
  intro other found key foundPlaced isData
  have known := TableHeap.isSome_table? (mapped.orderly.walk?_segments placed).2
  rw [TableHeap.get_set _ known] at isData
  split at isData
  next same =>
    rcases same with ⟨rfl, sameName⟩
    rcases ScriptKey.string.inj sameName with rfl
    have kind := (mapped.orderly.walk?_segments placed).2
    rw [(mapped.orderly.walk?_segments foundPlaced).2] at kind
    rcases TableKind.type.inj (Option.some.inj kind) with rfl
    exact handedOut
  next => exact mapped.names other found key foundPlaced isData

theorem fresh (host : Host) (config : Config) (store : HostStore) (tag : CacheTag) :
    (Context.fresh config tag).Mapped host config store where
  bound _ _ impossible := by cases impossible
  orderly := by
    have created := Orderly.created host.unregistered
    have nowhere : ∀ type table, (Context.fresh config tag).namespaces.table? type = some table ↔ False :=
      fun _ _ => ⟨fun placed => (by cases placed), False.elim⟩
    exact { created.mono fun _ => False.elim with toShaped := created.toShaped.congr nowhere }
  names _ _ _ impossible := by cases impossible

end Context.Mapped

namespace Host

variable {host : Host} {config : Config} {store : HostStore} {among : TypeRef → Prop} {start : World}

/-- Every step keeps the map of the tables, if what is handed out is not in the way. -/
theorem mapped_of_buildSteps (fresh : ∀ type, start.context.isBound type = false)
    (mapped : start.context.Mapped host config store) (clear : host.WaysClear config.access store among)
    {state : List TypeRef × World}
    (steps : Relation.ReflTransGen (host.BuildStep config store among) ([], start) state) :
    state.2.context.Mapped host config store := by
  induction steps with
  | refl => exact mapped
  | tail earlier step ih =>
      have included := among_of_buildSteps fresh earlier
      cases step with
      | aside aside =>
          exact ih.of_same aside.isBound_eq aside.namespaces_eq aside.heap_eq
      | opened present opened => exact ih.opened opened
      | entered placed offered noTable => exact ih.entered included clear placed offered noTable
      | rebound =>
          refine ih.of_same (fun _ => Context.isBound_modifyBinding _ _) ?_ ?_
          · rw [Context.modifyBinding_eq]
          · rw [Context.modifyBinding_eq]
      | ended => exact ih

end Host

end ScriptBridge
