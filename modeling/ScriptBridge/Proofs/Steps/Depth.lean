import Mathlib.Data.Finset.Card
import Mathlib.Data.Finset.Filter
import Mathlib.Order.Interval.Finset.Nat
import ScriptBridge.Proofs.Host.Lineage
import ScriptBridge.Proofs.Steps.Installing

/-!
# The depth of binding

To bind a type is to bind its base first, and after that whatever its constants, its
marker and its nested types ask for. The base is of lower rank, and nothing is less bound
than before. By the time anything else is asked for the type itself is bound, so that one
declared type less is unbound. An array type has no constants and nothing nested in it;
its marker asks for the type of types, which is of lower rank too. How deep the calls go
is therefore bounded by the number of unbound types and the height of the type.
-/

namespace ScriptBridge.Host

open Bridge

variable {host : Host} {α β : Type} {room : Nat}

/-- The declared types that are not bound. -/
def unbound (host : Host) (context : Context) : Finset Nat :=
  (Finset.range host.system.types.length).filter fun index => context.isBound (.declared index) = false

theorem unbound_subset {context later : Context}
    (grown : ∀ type, context.isBound type = true → later.isBound type = true) :
    host.unbound later ⊆ host.unbound context := by
  intro index listed
  rcases Finset.mem_filter.mp listed with ⟨declared, free⟩
  refine Finset.mem_filter.mpr ⟨declared, Bool.eq_false_iff.mpr fun bound => ?_⟩
  rw [grown _ bound] at free
  cases free

/-- Binding one more declared type leaves fewer unbound. -/
theorem card_unbound_lt {context later : Context} {index : Nat}
    (grown : ∀ type, context.isBound type = true → later.isBound type = true)
    (declared : index < host.system.types.length) (free : context.isBound (.declared index) = false)
    (bound : later.isBound (.declared index) = true) : (host.unbound later).card < (host.unbound context).card := by
  refine Finset.card_lt_card ((Finset.ssubset_iff_of_subset (unbound_subset grown)).mpr ⟨index, ?_, fun listed => ?_⟩)
  · exact Finset.mem_filter.mpr ⟨Finset.mem_range.mpr declared, free⟩
  · rw [(Finset.mem_filter.mp listed).2] at bound
    cases bound

/--
From a world, two operations come to the same. They do not end because of the depth that is left, and leave at most
so many types unbound.
-/
structure AgreeFrom (host : Host) (room : Nat) (first second : Bridge BindError α) (world : World) : Prop where
  same : exec first world = exec second world
  shallow : (exec first world).1 ≠ .error .tooDeep
  within : (host.unbound (exec first world).2.context).card ≤ room

theorem AgreeFrom.bind {first second : Bridge BindError α} {next other : α → Bridge BindError β} {world : World}
    (agree : host.AgreeFrom room first second world)
    (rest : ∀ value after, exec first world = (.ok value, after) →
      host.AgreeFrom room (next value) (other value) after) :
    host.AgreeFrom room (first >>= next) (second >>= other) world := by
  rcases agree with ⟨same, shallow, within⟩
  cases run : exec first world with
  | mk result after =>
      rw [run] at same shallow within
      cases result with
      | error error =>
          have ends := exec_bind_of_error run next
          refine ⟨ends.trans (exec_bind_of_error same.symm other).symm, ?_, ?_⟩
          · rw [ends]
            exact fun deep => shallow (by rw [Except.error.inj deep])
          · rwa [ends]
      | ok value =>
          have goesOn := exec_bind_of_ok run next
          rcases rest value after run with ⟨sameThen, shallowThen, withinThen⟩
          exact ⟨goesOn.trans (sameThen.trans (exec_bind_of_ok same.symm other).symm), goesOn ▸ shallowThen,
            goesOn ▸ withinThen⟩

theorem AgreeFrom.mono {first second : Bridge BindError α} {world : World} {more : Nat} (enough : room ≤ more)
    (agree : host.AgreeFrom room first second world) : host.AgreeFrom more first second world :=
  ⟨agree.same, agree.shallow, Nat.le_trans agree.within enough⟩

theorem AgreeFrom.within_after {first second : Bridge BindError α} {world after : World} {result : Except BindError α}
    (agree : host.AgreeFrom room first second world) (run : exec first world = (result, after)) :
    (host.unbound after.context).card ≤ room := by
  have within := agree.within
  rwa [run] at within

/-- Two operations agree from every world in which at most so many types are unbound. -/
def Agree (host : Host) (room : Nat) (first second : Bridge BindError α) : Prop :=
  ∀ world, (host.unbound world.context).card ≤ room → host.AgreeFrom room first second world

namespace Agree

/-- Steps of binding that do not go deeper agree with themselves. -/
theorem of_binds {action : Bridge BindError α} (binds : host.Binds action)
    (shallow : ∀ world, (exec action world).1 ≠ .error .tooDeep) : host.Agree room action action := by
  intro world within
  refine ⟨rfl, shallow world, Nat.le_trans (Finset.card_le_card (unbound_subset fun type => ?_)) within⟩
  exact isBound_of_bindSteps (binds world)

theorem pure (value : α) : host.Agree room (pure value) (pure value) :=
  fun _ within => ⟨rfl, fun impossible => (by cases impossible), within⟩

theorem throw {error : BindError} (shallow : error ≠ .tooDeep) :
    host.Agree room (throw error : Bridge BindError α) (throw error) :=
  fun _ within => ⟨rfl, fun same => shallow (Except.error.inj same), within⟩

theorem context : host.Agree room Bridge.context Bridge.context :=
  fun _ within => ⟨rfl, fun impossible => (by cases impossible), within⟩

theorem store : host.Agree room Bridge.store Bridge.store :=
  fun _ within => ⟨rfl, fun impossible => (by cases impossible), within⟩

theorem bind {first second : Bridge BindError α} {next other : α → Bridge BindError β}
    (agree : host.Agree room first second) (rest : ∀ value, host.Agree room (next value) (other value)) :
    host.Agree room (first >>= next) (second >>= other) := by
  intro world within
  have begins := agree world within
  exact begins.bind fun value after run => rest value after (begins.within_after run)

theorem discard {first second : Bridge BindError α} (agree : host.Agree room first second) :
    host.Agree room (discard first) (discard second) := by
  rw [Functor.discard, Functor.mapConst]
  exact agree.bind fun _ => .pure _

theorem forM {items : List α} {first second : α → Bridge BindError Unit}
    (all : ∀ item ∈ items, host.Agree room (first item) (second item)) :
    host.Agree room (items.forM first) (items.forM second) := by
  induction items with
  | nil => exact .pure _
  | cons item rest ih =>
      refine bind (all item List.mem_cons_self) fun _ => ?_
      exact ih fun other listed => all other (List.mem_cons_of_mem _ listed)

theorem mapM {items : List α} {first second : α → Bridge BindError β}
    (all : ∀ item, host.Agree room (first item) (second item)) :
    host.Agree room (items.mapM first) (items.mapM second) := by
  induction items with
  | nil => exact .pure _
  | cons item rest ih =>
      rw [List.mapM_cons, List.mapM_cons]
      exact bind (all item) fun _ => bind ih fun _ => .pure _

theorem modifyContext {change : Context → Context}
    (binds : host.Binds (Bridge.modifyContext change : Bridge BindError Unit)) :
    host.Agree room (Bridge.modifyContext change) (Bridge.modifyContext change) :=
  of_binds binds fun _ impossible => by cases impossible

end Agree

theorem agree_register (callable : Callable) :
    host.Agree room (Bridge.register callable) (Bridge.register callable) := by
  refine .of_binds (binds_register callable) fun world => ?_
  by_cases space : world.context.callables.size < UInt32.size
  · rw [exec_register_of_room space]
    exact fun impossible => by cases impossible
  · rw [exec_register_of_full (Nat.le_of_not_lt space)]
    exact fun impossible => by cases impossible

theorem agree_writeEntry (id : TableId) (name : String) (value : ScriptValue) :
    host.Agree room (Bridge.writeEntry id name value) (Bridge.writeEntry id name value) :=
  .modifyContext (binds_writeEntry id name value)

theorem agree_extensionMap : host.Agree room host.extensionMap host.extensionMap := by
  refine .of_binds binds_extensionMap fun world => ?_
  rw [exec_extensionMap]
  exact fun impossible => by cases impossible

theorem agree_installMember (type : TypeRef) (access : MemberAccess) (mode : BindingMode) (member : CatalogMember) :
    host.Agree room (host.installMember type access mode member) (host.installMember type access mode member) := by
  cases mode with
  | eager => exact .bind (.modifyContext (binds_count _)) fun _ => .bind (agree_register _) fun _ => .pure _
  | «lazy» => exact .bind (agree_register _) fun _ => .pure _

theorem agree_installItems (type : TypeRef) (indexers : List PropertyDef) :
    host.Agree room (installItems type indexers) (installItems type indexers) := by
  rw [installItems]
  split
  · exact .pure _
  · exact .bind (agree_register _) fun _ => .bind (agree_register _) fun _ => .pure _

end ScriptBridge.Host

namespace ScriptBridge.NamespaceTree

variable {system : TypeSystem} {type : TypeRef} {error : BindError}

theorem descend_eq_error {typeName path : String} {segments : List String} {current : TableId} {heap : TableHeap}
    (failed : descend typeName segments path current heap = .error error) :
    ∃ where_, error = .namespaceConflict where_ typeName := by
  induction segments generalizing path current heap with
  | nil => cases failed
  | cons segment rest ih =>
      rw [descend] at failed
      split at failed
      · exact ih failed
      · exact ih failed
      · exact ⟨_, (Except.error.inj failed).symm⟩

theorem placeLeaf_eq_error {name : String} {parent : TableId} {heap : TableHeap}
    (failed : placeLeaf system type name parent heap = .error error) :
    error = .namespaceConflict (system.fullName type) (system.fullName type) := by
  rw [placeLeaf] at failed
  split at failed
  · split at failed
    · split at failed
      · cases failed
      · exact (Except.error.inj failed).symm
    · cases failed
    · exact (Except.error.inj failed).symm
  · cases failed
  · exact (Except.error.inj failed).symm

/-- A type can only not be placed because something else is in the way. -/
theorem place_eq_error {tree : NamespaceTree} {heap : TableHeap}
    (failed : tree.place system heap type = .error error) :
    ∃ path, error = .namespaceConflict path (system.fullName type) := by
  rw [place] at failed
  split at failed
  next => cases failed
  next =>
    cases descended : descend (system.fullName type) (system.segments type).dropLast "" tree.root heap with
    | error conflict =>
        simp only [descended, bind, Except.bind, Except.error.injEq] at failed
        exact failed ▸ descend_eq_error descended
    | ok parent =>
        cases placed : placeLeaf system type ((system.segments type).getLastD "") parent.1 parent.2 with
        | error conflict =>
            simp only [descended, placed, bind, Except.bind, Except.error.injEq] at failed
            exact ⟨_, failed ▸ placeLeaf_eq_error placed⟩
        | ok leaf => simp only [descended, placed, bind, Except.bind, pure, Except.pure, reduceCtorEq] at failed

end ScriptBridge.NamespaceTree

namespace ScriptBridge.Host

open Bridge

variable {host : Host} {room : Nat} {first second : Binder} {type : TypeRef}

/-- Opening a binding places the type, or finds that something else is in the way. -/
theorem shallow_openBinding (world : World) (mode : BindingMode) :
    (exec (host.openBinding type mode) world).1 ≠ .error .tooDeep := by
  intro deep
  simp only [openBinding, exec_bind, exec_context, exec_ofExcept] at deep
  cases placed : world.context.namespaces.place host.system world.context.heap type with
  | ok result =>
      rw [placed] at deep
      cases deep
  | error error =>
      rw [placed] at deep
      rcases NamespaceTree.place_eq_error placed with ⟨path, rfl⟩
      cases deep

theorem agree_ensureBoundBy (agree : ∀ access mode, host.Agree room (first type access mode) (second type access mode)) :
    host.Agree room (ensureBoundBy first type) (ensureBoundBy second type) := by
  refine .bind .context fun context => ?_
  split
  · exact .discard (agree _ _)
  · exact .pure _

theorem agree_represent (value : HostValue) (type : TypeRef) :
    host.Agree room (Bridge.represent value type) (Bridge.represent value type) :=
  fun _ within => ⟨rfl, fun impossible => (by cases impossible), within⟩

/-- Handing out a value asks for its run-time type. -/
theorem agree_pushBy {value : HostValue}
    (agree : ∀ store type, HostStore.typeOf? store value = some type →
      ∀ access mode, host.Agree room (first type access mode) (second type access mode)) :
    host.Agree room (pushBy first value) (pushBy second value) := by
  rw [pushBy, pushBy]
  split
  · exact .pure _
  · refine .bind .store fun store => ?_
    split
    · exact .throw (by decide)
    next type typed =>
      exact .bind (agree_ensureBoundBy (agree store type typed)) fun _ => .bind (agree_represent value type) fun _ => .pure _

/-- Constants, nested types and members of enumerations are there for declared types only. -/
def Declares (host : Host) (type : TypeRef) : Prop := ∃ index < host.system.types.length, type = .declared index

theorem bare_of_not_declares (undeclared : ¬host.Declares type) :
    (host.system.definition type).fields = [] ∧ (host.system.definition type).nested = [] ∧
      (host.system.definition type).isEnumeration = false := by
  cases type with
  | declared index =>
      have absent : host.system.types[index]? = none :=
        List.getElem?_eq_none (Nat.le_of_not_lt fun declared => undeclared ⟨index, declared, rfl⟩)
      rw [TypeSystem.definition, absent]
      exact ⟨rfl, rfl, rfl⟩
  | array element => exact ⟨rfl, rfl, rfl⟩

theorem constants_of_not_declares (undeclared : ¬host.Declares type) (access : MemberAccess)
    (extensions : Option ExtensionMap) : (Catalog.ofType host.system type access extensions).constants = [] := by
  have none := (bare_of_not_declares undeclared).1
  simp only [Catalog.ofType, Catalog.scriptFields, TypeSystem.fields, none, List.map_nil, List.filter_nil]

section Furnishing

variable (agree : ∀ other, other = .typeType ∨ host.Declares type →
  ∀ access mode, host.Agree room (first other access mode) (second other access mode))

include agree

theorem agree_installMembers (access : MemberAccess) (mode : BindingMode) :
    host.Agree room (host.installMembers first type access mode) (host.installMembers second type access mode) := by
  refine .bind .context fun context => ?_
  split
  · exact .throw (by simp)
  · refine .bind agree_extensionMap fun extensions => .bind .store fun store => .bind (.forM fun constant listed => ?_) fun _ => ?_
    · have declared : host.Declares type := by
        by_contra undeclared
        rw [constants_of_not_declares undeclared] at listed
        exact absurd listed List.not_mem_nil
      exact .bind (agree_pushBy fun _ other _ => agree other (.inr declared)) fun _ => agree_writeEntry _ _ _
    · refine .bind (.mapM fun member => agree_installMember type access mode member) fun slots => ?_
      refine .bind (.mapM fun entry => .bind (agree_register _) fun _ => .pure _) fun operators => ?_
      refine .bind (agree_installItems _ _) fun items => .bind .context fun context => ?_
      split
      · exact .throw (by simp)
      · exact .modifyContext (binds_rebind type _)

theorem agree_installEnumeration (table : TableId) :
    host.Agree room (host.installEnumeration first type table) (host.installEnumeration second type table) := by
  rw [installEnumeration, installEnumeration]
  split
  next enumerated =>
    have declared : host.Declares type := by
      by_contra undeclared
      have none : (host.definition type).isEnumeration = false := (bare_of_not_declares undeclared).2.2
      rw [none] at enumerated
      cases enumerated
    refine .bind (.forM fun member _ => ?_) fun _ => .bind (agree_register _) fun _ => agree_writeEntry _ _ _
    exact .bind (agree_pushBy fun _ other _ => agree other (.inr declared)) fun _ => agree_writeEntry _ _ _
  next => exact .pure _

omit agree in
theorem agree_installConstructor :
    host.Agree room (host.installConstructor type) (host.installConstructor type) := by
  rw [installConstructor]
  split
  · exact .pure _
  · refine .bind (agree_register _) fun handle => .bind .context fun context => ?_
    split
    · exact .throw (by simp)
    · exact .modifyContext (binds_rebind type _)

theorem agree_bindNested (access : MemberAccess) (mode : BindingMode) :
    host.Agree room (host.bindNested first type access mode) (host.bindNested second type access mode) := by
  refine .bind .context fun context => ?_
  split
  next =>
    refine .forM fun nested listed => .discard (agree nested (.inr ?_) _ _)
    by_contra undeclared
    have none : (host.definition type).nested = [] := (bare_of_not_declares undeclared).2.1
    rw [nestedToBind, none] at listed
    exact absurd listed List.not_mem_nil
  next => exact .pure _

/-- Once a type is open, its marker asks for the type of types; nothing else is asked for unless the type is declared. -/
theorem agree_furnish (access : MemberAccess) (mode : BindingMode) (table : TableId) :
    host.Agree room (host.furnish first type access mode table) (host.furnish second type access mode table) := by
  refine .bind (agree_installMembers agree access mode) fun _ => .bind (agree_pushBy ?_) fun marker => ?_
  · intro store other typed
    exact agree other (.inl (Option.some.inj typed).symm)
  · refine .bind (agree_writeEntry _ _ _) fun _ => .bind (agree_installEnumeration agree table) fun _ => ?_
    exact .bind agree_installConstructor fun _ => agree_bindNested agree access mode

end Furnishing

/-- The rank of a type; types that are not declared stand above all that are. -/
def height (host : Host) (type : TypeRef) : Nat := min type.rank (2 * host.system.types.length)

theorem height_le (host : Host) (type : TypeRef) : host.height type ≤ 2 * host.system.types.length := Nat.min_le_right _ _

theorem height_lt_of_base? {base : TypeRef} (known : host.system.base? type = some base) :
    host.height base < host.height type := by
  have below := TypeSystem.rank_lt_of_base? known
  have core := host.system.starts_with_core
  have low : type.rank < 2 * host.system.types.length := by
    cases type with
    | declared index =>
        by_contra high
        have absent : host.system.types[index]? = none :=
          List.getElem?_eq_none (Nat.le_of_not_lt fun declared => high (by simp only [TypeRef.rank]; omega))
        rw [TypeSystem.base?, TypeSystem.definition, absent] at known
        cases known
    | array element =>
        simp only [TypeRef.rank, TypeRef.coreCount] at core ⊢
        omega
  rw [height, height]
  omega

/-- The type of types stands lower than any type without members. -/
theorem height_typeType_lt (undeclared : ¬host.Declares type) : host.height .typeType < host.height type := by
  have core := host.system.starts_with_core
  have high : 2 * TypeRef.coreCount - 1 ≤ type.rank := by
    cases type with
    | declared index =>
        have absent : host.system.types.length ≤ index :=
          Nat.le_of_not_lt fun declared => undeclared ⟨index, declared, rfl⟩
        simp only [TypeRef.rank]
        omega
    | array element => exact Nat.le_refl _
  simp only [height, TypeRef.typeType, TypeRef.rank, TypeRef.coreCount] at core high ⊢
  omega

/-- Binding anew asks for the base first, and for everything else once the type itself is bound. -/
theorem agree_bindAnew (binds : ∀ type access mode, host.Binds (first type access mode))
    (lower : ∀ other, host.height other < host.height type →
      ∀ access mode, host.Agree room (first other access mode) (second other access mode))
    (fewer : ∀ left < room, ∀ other access mode,
      host.Agree left (first other access mode) (second other access mode))
    {world : World} (within : (host.unbound world.context).card ≤ room) (free : world.context.isBound type = false)
    (access : MemberAccess) (mode : BindingMode) :
    host.AgreeFrom room (host.bindAnew first type access mode) (host.bindAnew second type access mode) world := by
  have based : host.Agree room (host.bindBase first type access mode) (host.bindBase second type access mode) := by
    rw [bindBase, bindBase]
    split
    next base known => exact .discard (lower base (height_lt_of_base? known) _ _)
    next => exact .pure _
  have opens : host.Agree room (host.openBinding type mode) (host.openBinding type mode) :=
    .of_binds (binds_openBinding type mode) fun world => shallow_openBinding world mode
  rw [bindAnew_eq, bindAnew_eq]
  have begins := based world within
  refine begins.bind fun _ middle basing => ?_
  refine (opens middle (begins.within_after basing)).bind fun table opened opening => ?_
  have openedHere := opening ▸ host.opened_openBinding type mode middle
  have grown (other : TypeRef) (bound : world.context.isBound other = true) :
      opened.context.isBound other = true :=
    openedHere.isBound_iff.mpr (.inr (isBound_of_bindSteps ((binds_bindBase binds type access mode).chain basing) bound))
  have furnished : host.AgreeFrom room (host.furnish first type access mode table)
      (host.furnish second type access mode table) opened := by
    by_cases declared : host.Declares type
    · rcases declared with ⟨index, known, rfl⟩
      have less := card_unbound_lt grown known free (openedHere.isBound_iff.mpr (.inl rfl))
      have left := Nat.lt_of_lt_of_le less within
      exact (agree_furnish (fun other _ => fewer _ left other) access mode table opened (Nat.le_refl _)).mono
        (Nat.le_of_lt left)
    · refine agree_furnish (fun other asked => lower other ?_) access mode table opened
        (Nat.le_trans (Finset.card_le_card (unbound_subset grown)) within)
      rcases asked with rfl | declaredToo
      · exact height_typeType_lt declared
      · exact absurd declaredToo declared
  refine furnished.bind fun _ last furnishing => ?_
  have counted : host.Agree room (do Bridge.count .countType; return table) (do Bridge.count .countType; return table) :=
    .bind (.modifyContext (binds_count _)) fun _ => .pure _
  exact counted last (furnished.within_after furnishing)

/-- One step of the recursion: a bound type keeps its binding, and another one is bound anew. -/
def unfolded (host : Host) (bind : Binder) : Binder := fun type access mode => do
  match (← Bridge.context).binding? type with
  | some binding => return binding.classTable
  | none => host.bindAnew bind type access mode

/-- A depth that is enough for a type where at most so many types are unbound. -/
def depthFor (host : Host) (room : Nat) (type : TypeRef) : Nat :=
  room * (2 * host.system.types.length + 2) + host.height type + 1

theorem depthFor_lt_of_lt {left : Nat} (less : left < room) (type other : TypeRef) :
    host.depthFor left other < host.depthFor room type := by
  have low := host.height_le other
  have scaled := Nat.mul_le_mul_right (2 * host.system.types.length + 2) (Nat.succ_le_of_lt less)
  rw [Nat.succ_mul] at scaled
  rw [depthFor, depthFor]
  omega

/--
Binding down to a depth that is enough comes to the same as any other way to follow the recursion, with as much depth
or without any bound. The induction is on the depth; each call that is made has a lower need.
-/
theorem agree_bindWithin {ways : Nat → Binder}
    (follows : ∀ depth type access mode world,
      exec (ways (depth + 1) type access mode) world = exec (host.unfolded (ways depth) type access mode) world)
    (depth other : Nat) (enough : host.depthFor room type ≤ depth) (enoughToo : host.depthFor room type ≤ other)
    (access : MemberAccess) (mode : BindingMode) :
    host.Agree room (host.bindWithin depth type access mode) (ways other type access mode) := by
  induction depth generalizing other room type access mode with
  | zero => exact absurd enough (by rw [depthFor]; omega)
  | succ depth ih =>
      cases other with
      | zero => exact absurd enoughToo (by rw [depthFor]; omega)
      | succ other =>
          intro world within
          have unfolds : host.AgreeFrom room (host.unfolded (host.bindWithin depth) type access mode)
              (host.unfolded (ways other) type access mode) world := by
            refine (Agree.context world within).bind fun context after run => ?_
            rw [exec_context, Prod.mk.injEq, Except.ok.injEq] at run
            rcases run with ⟨rfl, rfl⟩
            cases found : world.context.binding? type with
            | some binding => exact Agree.pure _ world within
            | none =>
                refine agree_bindAnew (fun type access mode => binds_bindWithin depth type access mode) ?_ ?_ within
                  (by rw [Context.isBound, found, Option.isSome_none]) access mode
                · intro lowerType isLower access mode
                  have needs : host.depthFor room lowerType < host.depthFor room type := by
                    rw [depthFor, depthFor]
                    omega
                  exact ih _ (by omega) (by omega) access mode
                · intro left isLess asked access mode
                  have needs := host.depthFor_lt_of_lt isLess type asked
                  exact ih _ (by omega) (by omega) access mode
          exact ⟨unfolds.same.trans (follows other type access mode world).symm, unfolds.shallow, unfolds.within⟩

theorem depthFor_le (host : Host) (type : TypeRef) :
    host.depthFor host.system.types.length type ≤ host.bindingDepth := by
  have low := host.height_le type
  rw [depthFor, bindingDepth, Nat.add_mul]
  omega

/-- From any world the depth that binding has is enough. -/
theorem agreeFrom_bindWith {ways : Nat → Binder}
    (follows : ∀ depth type access mode world,
      exec (ways (depth + 1) type access mode) world = exec (host.unfolded (ways depth) type access mode) world)
    {other : Nat} (enough : host.bindingDepth ≤ other) (type : TypeRef) (access : MemberAccess) (mode : BindingMode)
    (world : World) :
    host.AgreeFrom host.system.types.length (host.bindWith type access mode) (ways other type access mode) world := by
  refine agree_bindWithin follows _ _ (host.depthFor_le type) (Nat.le_trans (host.depthFor_le type) enough) access mode
    world ?_
  refine (Finset.card_filter_le _ _).trans ?_
  rw [Finset.card_range]

theorem exec_bindWithin_succ (host : Host) (depth : Nat) (type : TypeRef) (access : MemberAccess) (mode : BindingMode)
    (world : World) : exec (host.bindWithin (depth + 1) type access mode) world =
      exec (host.unfolded (host.bindWithin depth) type access mode) world := rfl

/-- Binding follows the recursion itself, for which no depth is kept. -/
theorem bindWith_eq_unfolded (host : Host) : host.bindWith = host.unfolded host.bindWith := by
  funext type access mode
  refine funext fun world => ?_
  exact (host.agreeFrom_bindWith host.exec_bindWithin_succ (Nat.le_succ _) type access mode world).same

end ScriptBridge.Host
