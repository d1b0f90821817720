import ScriptBridge.Proofs.Namespaces.Naming
import ScriptBridge.Proofs.Namespaces.Surveyed

/-!
# Reaching types by their dotted paths

Walking the dotted path of a registered type goes from one namespace or type on the
path to the next, and makes it if it is not there. Each step leads to the next
table, or fails since a type on the path cannot be bound. So the walk arrives at the
table of the type, unless it comes by a node of the namespaces that stands in the
place of a type: it was made on the way to a nested type that was bound first, and
is taken for a namespace.
-/

/-!
## Walking dotted paths

Where the tables on a path are there, walking it follows them and changes nothing.
Hence a type that was bound once is found at its dotted path ever after.
-/

namespace ScriptBridge

/-- The names of a type from the root on, with dots between them. -/
def Host.dottedPath (host : Host) (type : TypeRef) : String := NamespaceTree.dotted (host.system.segments type)

namespace Host

open Bridge

variable {host : Host} {known : TypeRef → TableId → Prop} {type : TypeRef} {world after : World}

theorem exec_index_of_child? {id next : TableId} {name : String}
    (child : world.context.heap.child? id name = some next) :
    exec (host.index (.table id) (.string name)) world = (.ok (.table next), world) := by
  have entry := TableHeap.child?_eq_some.mp child
  rw [index, indexBy, indexTable, exec_bind_of_ok (exec_context world)]
  simp only [ScriptKey.ofValue?, Option.elim_some, entry]
  rfl

theorem exec_walk_of_walk? {id last : TableId} {path : List String}
    (found : world.context.heap.walk? id path = some last) :
    exec (host.walk (.table id) path) world = (.ok (.table last), world) := by
  induction path generalizing id with
  | nil =>
      rcases Option.some.inj found with rfl
      rfl
  | cons name rest ih =>
      rcases Option.bind_eq_some_iff.mp found with ⟨next, child, deeper⟩
      rw [walk, if_neg (by simp [ScriptValue.isNil]), exec_bind_of_ok (exec_index_of_child? child)]
      exact ih deeper

theorem exec_global_of_walk? {path : String} {table : TableId}
    (found : world.context.heap.walk? world.context.namespaces.root (Text.segments path) = some table) :
    exec (host.global path) world = (.ok (.table table), world) := by
  rw [global, exec_bind_of_ok (exec_context world)]
  exact exec_walk_of_walk? found

/-- From a world on, whatever happens but writing to the tables of the tree, a type is at a table. -/
def Settled (host : Host) (type : TypeRef) (table : TableId) (world : World) : Prop :=
  ∀ later, host.Unwritten world later →
    exec (host.global (host.dottedPath type)) later = (.ok (.table table), later) ∧
      ∀ value last, exec (host.loadClass type) later = (.ok value, last) → value = .table table

theorem exec_loadClass (type : TypeRef) (world : World) :
    exec (host.loadClass type) world =
      let run := exec (host.bindWith type world.context.config.access world.context.config.mode) world
      (run.1.map ScriptValue.table, run.2) := by
  rw [loadClass, Host.bind, bind_assoc, exec_bind_of_ok (exec_context world), bind_pure_comp, exec_map]

theorem unwritten_loadClass (type : TypeRef) (world : World) :
    host.Unwritten world (exec (host.loadClass type) world).2 := by
  rw [exec_loadClass]
  exact .single (.bindWith world type _ _)

theorem exec_loadClass_eq_ok {value : ScriptValue}
    (run : exec (host.loadClass type) world = (.ok value, after)) :
    ∃ table, value = .table table ∧
      exec (host.bindWith type world.context.config.access world.context.config.mode) world = (.ok table, after) := by
  rw [exec_loadClass] at run
  cases binding : exec (host.bindWith type world.context.config.access world.context.config.mode) world with
  | mk result last =>
      rw [binding] at run
      rcases Prod.mk.inj run with ⟨given, rfl⟩
      cases result with
      | error error => cases given
      | ok table => exact ⟨table, (Except.ok.inj given).symm, rfl⟩

/-- A type that is known to be at a table is there for good. -/
theorem settled_of_known (apart : host.NamesApart) (names : ∀ name ∈ host.system.segments type, Text.IsName name)
    (surveyed : world.context.Surveyed host known) {table : TableId} (at_ : known type table) :
    host.Settled type table world := by
  intro later changes
  have stays := surveyed_changes apart surveyed changes
  refine ⟨exec_global_of_walk? ?_, fun value last run => ?_⟩
  · rw [dottedPath, NamespaceTree.segments_dotted names]
    exact (stays.walk?_segments at_).1
  · rcases exec_loadClass_eq_ok run with ⟨other, rfl, binding⟩
    have both := surveyed_of_bindWith apart stays binding
    have same := (both.walk?_segments (.inl at_)).1.symm.trans (both.walk?_segments (.inr ⟨rfl, rfl⟩)).1
    rw [Option.some.inj same]

/-- A type that was loaded is at its table for good. -/
theorem settled_of_loadClass (apart : host.NamesApart) (names : ∀ name ∈ host.system.segments type, Text.IsName name)
    (surveyed : world.context.Surveyed host known) {value : ScriptValue}
    (run : exec (host.loadClass type) world = (.ok value, after)) :
    ∃ table, value = .table table ∧ host.Settled type table after := by
  rcases exec_loadClass_eq_ok run with ⟨table, rfl, binding⟩
  exact ⟨table, rfl, settled_of_known apart names (surveyed_of_bindWith apart surveyed binding) (.inr ⟨rfl, rfl⟩)⟩

end Host

end ScriptBridge

/-! ## From the root to a type -/

namespace ScriptBridge.Host

open Bridge NamespaceTree

variable {host : Host} {type outer nested ancestor : TypeRef} {world after : World}

theorem exec_index_of_nil {id : TableId} {name : String} {kind : TableKind}
    (known : world.context.heap.kind? id = some kind) (missing : world.context.heap.get id (.string name) = .nil) :
    exec (host.index (.table id) (.string name)) world =
      match kind with
      | .type type => exec (host.indexType host.invoke type (.string name)) world
      | .space path => exec (host.indexNamespace id path (.string name)) world
      | .plain => (.ok .nil, world) := by
  rw [index, indexBy, indexTable, exec_bind_of_ok (exec_context world)]
  simp only [ScriptKey.ofValue?, Option.elim_some, missing, known]
  cases kind <;> rfl

/-- Nothing static is found along a chain of types that have nothing of the name. -/
theorem exec_readStaticAlong_of_none {invoke : Invoker} {name : String} {isFirst : Bool} {chain : List TypeRef}
    (noSlot : ∀ type ∈ chain, ∀ binding, world.context.binding? type = some binding →
      binding.slot? .classMethods name = none ∧ binding.slot? .classGetters name = none)
    (noEntry : ∀ type ∈ (if isFirst then chain.tail else chain), ∀ binding,
      world.context.binding? type = some binding → world.context.heap.get binding.classTable (.string name) = .nil) :
    exec (readStaticAlong invoke name isFirst chain) world = (.ok none, world) := by
  induction chain generalizing isFirst with
  | nil => rfl
  | cons type rest ih =>
      rcases List.forall_mem_cons.mp noSlot with ⟨slots, others⟩
      have later : exec (readStaticAlong invoke name false rest) world = (.ok none, world) := by
        refine ih others fun found listed => ?_
        cases isFirst with
        | true => exact noEntry found listed
        | false => exact noEntry found (List.mem_cons_of_mem _ listed)
      rw [readStaticAlong, exec_bind_of_ok (exec_context world)]
      cases bound : world.context.binding? type with
      | none => exact later
      | some binding =>
          have entry : (if isFirst = true then ScriptValue.nil
              else world.context.heap.get binding.classTable (.string name)) = .nil := by
            cases isFirst with
            | true => rfl
            | false => exact noEntry type List.mem_cons_self binding bound
          simp only [entry, slots binding bound]
          exact later

section Members

variable {known : TypeRef → TableId → Prop} {binding : TypeBinding}

/-- A bound type has no static slot of a name that none of its static members has. -/
theorem slot?_eq_none (surveyed : world.context.Surveyed host known)
    (bound : world.context.binding? type = some binding) {name : String}
    (unused : ∀ member : CatalogMember, member.DeclaredBy host.system type → member.isStatic = true →
      member.name ≠ name) {table : MemberTable}
    (static : ∀ kind isStatic, MemberTable.ofMember kind isStatic = table → isStatic = true) :
    binding.slot? table name = none := by
  cases found : binding.slot? table name with
  | none => rfl
  | some slot =>
      rcases (surveyed.listed type binding bound).slots _ (FinMap.mem_entries_of_get? found) with
        ⟨member, declared, place⟩
      rcases Prod.mk.inj place with ⟨sameTable, sameName⟩
      exact absurd sameName (unused member declared (static _ _ sameTable))

/-- The table of a bound type has no entry of a name that binding it does not enter and that leads nowhere. -/
theorem entry_eq_nil (surveyed : world.context.Surveyed host known)
    (bound : world.context.binding? type = some binding) {name : String} (notEntered : ¬host.Enters type name)
    (leadsNowhere : ¬host.Leads (fun _ => True) (host.system.segments type ++ [name])) :
    world.context.heap.get binding.classTable (.string name) = .nil := by
  rcases surveyed.tables with ⟨placed, orderly, -, tabled⟩
  rcases orderly.walk?_segments (tabled type _ (surveyed.wired.placed type binding bound)) with ⟨reached, kind⟩
  have noData : (world.context.heap.get binding.classTable (.string name)).isData = false := by
    refine Bool.eq_false_iff.mpr fun isData => ?_
    rcases orderly.data _ _ name reached isData with ⟨other, otherKind, enters⟩
    rw [kind] at otherKind
    rcases TableKind.type.inj (Option.some.inj otherKind) with rfl
    exact notEntered enters
  cases entry : world.context.heap.get binding.classTable (.string name) with
  | nil => rfl
  | table next =>
      have further := (Shaped.walk?_child reached name).trans (TableHeap.child?_eq_some.mpr entry)
      exact absurd ((orderly.leads _ next further).mono fun _ _ => trivial) leadsNowhere
  | _ => rw [entry] at noData; cases noData

/-- Nothing along the chain of a type is in the way of a type that is nested in it. -/
theorem exec_readStaticAlong_of_encloses (unambiguous : host.Unambiguous)
    (surveyed : world.context.Surveyed host known) (outerRegistered : host.IsRegistered outer)
    (registered : host.IsRegistered nested) (encloses : host.Encloses outer nested) :
    exec (readStaticAlong host.invoke (host.definition nested).name true (host.system.lineage outer)) world =
      (.ok none, world) := by
  have unused := unambiguous.members outer nested outerRegistered registered encloses
  refine exec_readStaticAlong_of_none (fun ancestor listed binding bound => ⟨?_, ?_⟩)
    fun ancestor listed binding bound => ?_
  · refine slot?_eq_none surveyed bound (unused ancestor listed) fun kind isStatic same => ?_
    cases kind <;> cases isStatic <;> first | rfl | cases same
  · refine slot?_eq_none surveyed bound (unused ancestor listed) fun kind isStatic same => ?_
    cases kind <;> cases isStatic <;> first | rfl | cases same
  · rcases unambiguous.bases outer nested outerRegistered registered encloses ancestor listed with
      ⟨notEntered, leadsNowhere⟩
    exact entry_eq_nil surveyed bound notEntered leadsNowhere

/-- A nested type that the table of its type does not have is loaded. -/
theorem exec_indexType_of_encloses (unambiguous : host.Unambiguous) (surveyed : world.context.Surveyed host known)
    (outerRegistered : host.IsRegistered outer) (registered : host.IsRegistered nested)
    (encloses : host.Encloses outer nested) :
    exec (host.indexType host.invoke outer (.string (host.definition nested).name)) world =
      exec (Bridge.asScript (host.loadClass nested)) world := by
  have chain : world.context.lookupChain host.system outer = host.system.lineage outer := by
    rw [Context.lookupChain, TypeSystem.lineage]
    cases bound : world.context.binding? outer with
    | none => rfl
    | some binding => rw [Option.map_some, Option.getD_some, (surveyed.listed outer binding bound).chain]
  have missing := exec_readStaticAlong_of_encloses unambiguous surveyed outerRegistered registered encloses
  have found : host.registry.get? (host.fullName outer ++ "+" ++ (host.definition nested).name) = some nested := by
    rw [← encloses.fullName_eq]
    exact registered
  simp only [indexType, ScriptValue.asString?]
  rw [exec_bind_of_ok (exec_context world), chain, exec_bind_of_ok missing]
  simp only [found]

end Members

/-- What a step of a walk on the path of a type leads to. -/
inductive Advance (host : Host) (type : TypeRef) (start : World) (way : List String) :
    Except ScriptError ScriptValue × World → Prop
  /-- The table at the path. -/
  | moved {next : TableId} {after : World} (unwritten : host.Unwritten start after)
      (surveyed : after.context.Surveyed host fun _ _ => False)
      (entered : after.context.heap.walk? after.context.namespaces.root way = some next) :
      Advance host type start way (.ok (.table next), after)
  /-- The failure of a type on the path to be bound. -/
  | failed {outer : TypeRef} {middle after : World} {cause : BindError} (unwritten : host.Unwritten start middle)
      (registered : host.IsRegistered outer) (onPath : host.system.segments outer <+: host.system.segments type)
      (failing : exec (host.loadClass outer) middle = (.error cause, after)) :
      Advance host type start way (.error (.ofBindError cause), after)

/-- Loading a type on the path leads to its table. -/
theorem advance_loadClass (apart : host.NamesApart) (surveyed : world.context.Surveyed host fun _ _ => False)
    (registered : host.IsRegistered outer) (onPath : host.system.segments outer <+: host.system.segments type) :
    host.Advance type world (host.system.segments outer) (exec (Bridge.asScript (host.loadClass outer)) world) := by
  have unwritten := host.unwritten_loadClass outer world
  rw [asScript, exec_adapt]
  cases run : exec (host.loadClass outer) world with
  | mk result after =>
      rw [run] at unwritten
      cases result with
      | error cause => exact .failed .refl registered onPath run
      | ok value =>
          rcases exec_loadClass_eq_ok run with ⟨table, rfl, binding⟩
          have at_ := surveyed_of_bindWith apart surveyed binding
          exact .moved unwritten (at_.mono fun _ _ => .inl) (at_.walk?_segments (.inr ⟨rfl, rfl⟩)).1

section Step

variable {way rest : List String} {name : String} {id : TableId}

/-- What is missing from a namespace on the path of a type is a type, or a namespace that is made. -/
theorem advance_indexNamespace (unambiguous : host.Unambiguous)
    (surveyed : world.context.Surveyed host fun _ _ => False) (registered : host.IsRegistered type)
    (split : way ++ name :: rest = host.system.segments type)
    (reached : world.context.heap.walk? world.context.namespaces.root way = some id)
    (space : world.context.heap.kind? id = some (.space (dotted way)))
    (missing : world.context.heap.get id (.string name) = .nil)
    (proper : ∀ outer, host.IsRegistered outer → host.system.segments outer = way →
      world.context.heap.kind? id = some (.type outer)) :
    host.Advance type world (way ++ [name])
      (exec (host.indexNamespace id (dotted way) (.string name)) world) := by
  have onPath : way ++ [name] <+: host.system.segments type := ⟨rest, by rw [← split, ← List.append_cons]⟩
  simp only [indexNamespace, ScriptValue.asString?, ← dotted_concat]
  cases found : host.registry.get? (dotted (way ++ [name])) with
  | some next =>
      have names := fun part listed => unambiguous.named type registered part (onPath.subset listed)
      rcases unambiguous.segments_of_get? names found with ⟨nextRegistered, same⟩
      rw [← same] at onPath ⊢
      exact advance_loadClass unambiguous.apart surveyed nextRegistered onPath
  | none =>
      have known : host.registry.hasNamespace host.system (dotted (way ++ [name])) = true := by
        cases unambiguous.ahead registered split with
        | space within => exact unambiguous.hasNamespace_of_prefix registered (by simp) within
        | top nextRegistered all full =>
            rw [IsRegistered, full, found] at nextRegistered
            cases nextRegistered
        | nested outerRegistered _ _ before _ =>
            have kind := proper _ outerRegistered before
            rw [space] at kind
            cases kind
      rw [if_pos known]
      have change : host.Change PlainTable world _ :=
        .enterSpace world id (dotted way) name space missing (by rwa [← dotted_concat])
      rcases surveyed.tables with ⟨placed, orderly, -, -⟩
      have entered := (orderly.enterSpace reached missing (.space known)).2
      rw [← dotted_concat] at entered change
      exact .moved (.single change) (surveyed_change unambiguous.apart surveyed change) entered

/-- A step of a walk on the path of a type leads to the next table on the path. -/
theorem advance_index (unambiguous : host.Unambiguous) (surveyed : world.context.Surveyed host fun _ _ => False)
    (registered : host.IsRegistered type) (split : way ++ name :: rest = host.system.segments type)
    (reached : world.context.heap.walk? world.context.namespaces.root way = some id)
    (proper : ∀ outer, host.IsRegistered outer → host.system.segments outer = way →
      world.context.heap.kind? id = some (.type outer)) :
    host.Advance type world (way ++ [name]) (exec (host.index (.table id) (.string name)) world) := by
  have onPath : way ++ [name] <+: host.system.segments type := ⟨rest, by rw [← split, ← List.append_cons]⟩
  rcases surveyed.tables with ⟨placed, orderly, -, -⟩
  rcases orderly.kinds way id reached with ⟨kind, known, notPlain⟩
  cases entry : world.context.heap.get id (.string name) with
  | table next =>
      have child := TableHeap.child?_eq_some.mpr entry
      rw [exec_index_of_child? child]
      exact .moved .refl surveyed ((Shaped.walk?_child reached name).trans child)
  | nil =>
      rw [exec_index_of_nil known entry]
      cases kind with
      | plain => exact absurd rfl notPlain
      | space text =>
          rcases orderly.texts way id text reached known with rfl
          exact advance_indexNamespace unambiguous surveyed registered split reached known entry proper
      | type found =>
          have own := ((orderly.types way id found).mp ⟨reached, known⟩).2
          cases unambiguous.ahead registered split with
          | space within =>
              refine absurd ?_ (unambiguous.spaces type registered.mem found)
              rw [← own]
              exact (List.prefix_append way [name]).trans within
          | top _ all _ =>
              have within : host.system.segments found <+: Text.segments (host.definition type).space :=
                own ▸ all ▸ List.prefix_rfl
              exact absurd within (unambiguous.spaces type registered.mem found)
          | nested outerRegistered nextRegistered encloses before last =>
              have kind := proper _ outerRegistered before
              rw [known] at kind
              rcases TableKind.type.inj (Option.some.inj kind) with rfl
              have same := encloses.segments_eq
              rw [before, last] at same
              rw [← same] at onPath ⊢
              subst last
              dsimp only
              rw [exec_indexType_of_encloses unambiguous surveyed outerRegistered nextRegistered encloses]
              exact advance_loadClass unambiguous.apart surveyed nextRegistered onPath
  | _ =>
      -- Data stands under names only that binding types enters, and none of them is on a path.
      have isData : (world.context.heap.get id (.string name)).isData = true := by rw [entry]; rfl
      rcases orderly.data way id name reached isData with ⟨found, kind, enters⟩
      have own := ((orderly.types way id found).mp ⟨reached, kind⟩).2
      exact absurd (.towards trivial (own ▸ onPath)) (unambiguous.apart found name enters)

end Step

/-- A type that was placed has a path that goes on where the path of another type ends. -/
def PlacedBelow (host : Host) (outer : TypeRef) (world : World) : Prop :=
  ∃ nested table, nested ≠ outer ∧ host.system.segments outer <+: host.system.segments nested ∧
    world.context.heap.walk? world.context.namespaces.root (host.system.segments nested) = some table ∧
    world.context.heap.kind? table = some (.type nested)

/-- A node of the namespaces is in the place of a type only since a type below was placed. -/
theorem placedBelow_of_space (unambiguous : host.Unambiguous) {known : TypeRef → TableId → Prop}
    (surveyed : world.context.Surveyed host known) (registered : host.IsRegistered type) {table : TableId} {text : String}
    (reached : world.context.heap.walk? world.context.namespaces.root (host.system.segments type) = some table)
    (space : world.context.heap.kind? table = some (.space text)) : host.PlacedBelow type world := by
  rcases surveyed.tables with ⟨placed, orderly, -, -⟩
  have leads := orderly.leads _ table reached
  generalize same : host.system.segments type = path at leads
  cases leads with
  | root => simp [TypeSystem.segments] at same
  | towards goal onPath =>
      rw [← same] at onPath
      rcases goal with ⟨inner, at_⟩
      rcases orderly.walk?_segments at_ with ⟨found, stands⟩
      refine ⟨_, inner, ?_, onPath, found, stands⟩
      rintro rfl
      rcases Option.some.inj (reached.symm.trans found) with rfl
      rw [space] at stands
      cases stands
  | space known =>
      rcases exists_of_hasNamespace known with ⟨other, listed, within⟩
      rw [← same, segments_dotted (unambiguous.isName registered)] at within
      exact absurd within (unambiguous.spaces other listed type)

/-- What walking the dotted path of a registered type leads to. -/
inductive Arrival (host : Host) (type : TypeRef) (start : World) : Except ScriptError ScriptValue × World → Prop
  /-- The table of the type, where the type is from now on. -/
  | found {table : TableId} {after : World} (unwritten : host.Unwritten start after)
      (stands : after.context.heap.kind? table = some (.type type)) (settled : host.Settled type table after) :
      Arrival host type start (.ok (.table table), after)
  /-- The type itself or a type that encloses it cannot be bound, and that failure is told. -/
  | failed {outer : TypeRef} {middle after : World} {cause : BindError} (unwritten : host.Unwritten start middle)
      (registered : host.IsRegistered outer) (onPath : host.system.segments outer <+: host.system.segments type)
      (failing : exec (host.loadClass outer) middle = (.error cause, after)) :
      Arrival host type start (.error (.ofBindError cause), after)
  /--
  On the way a node of the namespaces stands in the place of the type or of a type
  that encloses it, since a type below was placed before.
  -/
  | hidden {outer : TypeRef} {middle : World} {table : TableId} {text : String}
      {run : Except ScriptError ScriptValue × World} (unwritten : host.Unwritten start middle)
      (registered : host.IsRegistered outer) (onPath : host.system.segments outer <+: host.system.segments type)
      (reached : middle.context.heap.walk? middle.context.namespaces.root (host.system.segments outer) = some table)
      (space : middle.context.heap.kind? table = some (.space text)) (below : host.PlacedBelow outer middle) :
      Arrival host type start run

/-- At a path that registered types may have stands a node of the namespaces, or the table of such a type. -/
theorem space_or_type_of_walk? (unambiguous : host.Unambiguous) {known : TypeRef → TableId → Prop}
    (surveyed : world.context.Surveyed host known) {way : List String} {id : TableId}
    (reached : world.context.heap.walk? world.context.namespaces.root way = some id) :
    (∃ text, world.context.heap.kind? id = some (.space text)) ∨
      ∀ outer, host.IsRegistered outer → host.system.segments outer = way →
        world.context.heap.kind? id = some (.type outer) := by
  rcases surveyed.tables with ⟨placed, orderly, -, -⟩
  rcases orderly.kinds way id reached with ⟨kind, found, notPlain⟩
  cases kind with
  | plain => exact absurd rfl notPlain
  | space text => exact .inl ⟨text, found⟩
  | type other =>
      have own := ((orderly.types way id other).mp ⟨reached, found⟩).2
      refine .inr fun outer registered same => ?_
      rw [found, unambiguous.distinct outer registered other (own.symm.trans same.symm)]

/-- Walking on from a table on the path of a registered type. -/
theorem arrival_walk (unambiguous : host.Unambiguous) {start : World} (registered : host.IsRegistered type)
    {way rest : List String} {id : TableId} (unwritten : host.Unwritten start world)
    (surveyed : world.context.Surveyed host fun _ _ => False) (split : way ++ rest = host.system.segments type)
    (reached : world.context.heap.walk? world.context.namespaces.root way = some id) :
    host.Arrival type start (exec (host.walk (.table id) rest) world) := by
  -- Either the walk stands at a node in the place of a type, or at what is to be there.
  induction rest generalizing way id world with
  | nil =>
      rw [List.append_nil] at split
      rcases space_or_type_of_walk? unambiguous surveyed reached with ⟨text, space⟩ | proper
      · rw [split] at reached
        exact .hidden unwritten registered List.prefix_rfl reached space
          (placedBelow_of_space unambiguous surveyed registered reached space)
      · have stands := proper type registered split.symm
        have remembered := surveyed.recognize reached stands
        exact .found unwritten stands
          (settled_of_known unambiguous.apart (unambiguous.isName registered) remembered (.inr ⟨rfl, rfl⟩))
  | cons name rest ih =>
      by_cases hides : ∃ outer text, host.IsRegistered outer ∧ host.system.segments outer = way ∧
          world.context.heap.kind? id = some (.space text)
      · rcases hides with ⟨outer, text, outerRegistered, rfl, space⟩
        exact .hidden unwritten outerRegistered ⟨name :: rest, split⟩ reached space
          (placedBelow_of_space unambiguous surveyed outerRegistered reached space)
      have proper : ∀ outer, host.IsRegistered outer → host.system.segments outer = way →
          world.context.heap.kind? id = some (.type outer) := by
        intro outer outerRegistered same
        refine (space_or_type_of_walk? unambiguous surveyed reached).resolve_left ?_ outer outerRegistered same
        exact fun ⟨text, space⟩ => hides ⟨outer, text, outerRegistered, same, space⟩
      have step := advance_index unambiguous surveyed registered split reached proper
      rw [List.append_cons] at split
      rw [walk, if_neg (by simp [ScriptValue.isNil]), exec_bind]
      generalize exec (host.index (.table id) (.string name)) world = run at step
      cases step with
      | moved unwrittenOn surveyedThen entered =>
          exact ih (unwritten.trans unwrittenOn) surveyedThen split entered
      | failed unwrittenOn outerRegistered onPath failing =>
          exact .failed (unwritten.trans unwrittenOn) outerRegistered onPath failing

theorem arrival_global (unambiguous : host.Unambiguous) (registered : host.IsRegistered type)
    {known : TypeRef → TableId → Prop} (surveyed : world.context.Surveyed host known) :
    host.Arrival type world (exec (host.global (host.dottedPath type)) world) := by
  rw [global, exec_bind_of_ok (exec_context world), dottedPath, segments_dotted (unambiguous.isName registered)]
  exact arrival_walk unambiguous registered .refl (surveyed.mono fun _ _ => False.elim) rfl (TableHeap.walk?_root _ _)

/--
In every state that a context reaches from the start without anybody writing into
its namespaces and tables of types: a registered type that is loaded is from then on
at its dotted path, where every later load finds it too. Walking the path of a type
arrives at its table, or fails as binding a type on the path does, or comes by a
node of the namespaces that stands in the place of a type on the path, because a
type below that was placed first.
-/
theorem reaches_registered (unambiguous : host.Unambiguous) {start world : World} {config : Config} {tag : CacheTag}
    (fresh : start.context = .fresh config tag) (unwritten : host.Unwritten start world)
    (registered : host.IsRegistered type) :
    (∀ value loaded, exec (host.loadClass type) world = (.ok value, loaded) →
      ∃ table, value = .table table ∧ host.Settled type table loaded) ∧
    host.Arrival type world (exec (host.global (host.dottedPath type)) world) := by
  have surveyed := surveyed_changes unambiguous.apart (fresh ▸ Context.surveyed_fresh host config tag) unwritten
  refine ⟨fun value loaded run => ?_, arrival_global unambiguous registered surveyed⟩
  exact settled_of_loadClass unambiguous.apart (unambiguous.isName registered) surveyed run

end ScriptBridge.Host
