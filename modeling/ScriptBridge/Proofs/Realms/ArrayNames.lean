import ScriptBridge.Proofs.Namespaces.Conflicts
import ScriptBridge.Proofs.Namespaces.Declared
import ScriptBridge.Proofs.Realms.Assignability
import ScriptBridge.Proofs.Tables.Settled

/-!
# Names of array types

An array type has the namespace and the name of its element type, with brackets, and not
the types that enclose it. Arrays of types that are not nested are therefore told apart as
the types are, and can be handed to one script. Arrays of nested types that differ only in
what encloses them have one name, and only one of them can be in a context.
-/

namespace ScriptBridge

open NamespaceTree

namespace NamespaceTree

theorem extendPath_append (path name ending : String) :
    extendPath path (name ++ ending) = extendPath path name ++ ending := by
  rw [extendPath, extendPath]
  split
  · rfl
  · simp only [String.append_assoc]

end NamespaceTree

namespace TypeSystem

variable {system : TypeSystem}

theorem fullName_array (system : TypeSystem) (element : TypeRef) :
    system.fullName (.array element) =
      extendPath (system.definition element).space (system.definition element).name ++ "[]" := by
  rw [← extendPath_append]
  exact TypeDef.fullName_of_top rfl

theorem segments_array (system : TypeSystem) (element : TypeRef) :
    system.segments (.array element) =
      Text.segments (system.definition element).space ++ [(system.definition element).name ++ "[]"] :=
  congrArg (· ++ [(system.definition element).name ++ "[]"]) (List.append_nil _)

/-- Array types have one full name if their element types have one when what encloses them is left out. -/
theorem fullName_array_eq_iff {left right : TypeRef} :
    system.fullName (.array left) = system.fullName (.array right) ↔
      extendPath (system.definition left).space (system.definition left).name =
        extendPath (system.definition right).space (system.definition right).name := by
  rw [fullName_array, fullName_array, String.append_left_inj]

/-- Array types have one path if their element types have one when what encloses them is left out. -/
theorem segments_array_eq_iff {left right : TypeRef} :
    system.segments (.array left) = system.segments (.array right) ↔
      Text.segments (system.definition left).space = Text.segments (system.definition right).space ∧
        (system.definition left).name = (system.definition right).name := by
  rw [segments_array, segments_array, List.append_singleton_inj, String.append_left_inj]

end TypeSystem

namespace Host

open Bridge

variable {host : Host} {type left right : TypeRef}

/-- Array types of types that are not nested are told apart as the types are. -/
theorem arrays_ne_of_top (registered : host.IsRegistered left) (registeredToo : host.IsRegistered right)
    (top : (host.definition left).enclosing = []) (topToo : (host.definition right).enclosing = [])
    (different : left ≠ right)
    (apart : host.system.segments left ≠ host.system.segments right) :
    host.fullName (.array left) ≠ host.fullName (.array right) ∧
      host.system.segments (.array left) ≠ host.system.segments (.array right) := by
  constructor
  · intro same
    have sameName : host.fullName left = host.fullName right :=
      (TypeDef.fullName_of_top top).trans ((TypeSystem.fullName_array_eq_iff.mp same).trans
        (TypeDef.fullName_of_top topToo).symm)
    rw [IsRegistered, sameName, registeredToo] at registered
    exact different (Option.some.inj registered).symm
  · intro same
    rcases TypeSystem.segments_array_eq_iff.mp same with ⟨space, name⟩
    rw [definition] at top topToo
    exact apart (by simp only [TypeSystem.segments, top, topToo, space, name])

/--
The core types are there, with paths that no other declared type has, and no declared type has a name like that of
an array type. What binding enters into tables is on nobody's way.
-/
structure WellNamed (host : Host) : Prop where
  core : TypeSystem.core.Precedes host.system
  alone : ∀ type ∈ [TypeRef.object, .arrayBase, .typeType], ∀ index < host.system.types.length,
    host.system.segments (.declared index) = host.system.segments type → .declared index = type
  bracketless : ∀ definition ∈ host.system.types, ¬"[]".toList <:+ definition.name.toList
  apart : host.NamesApart

/-- A declared type is told apart from the others by its namespace and its name alone, whatever encloses them. -/
structure ToldApart (host : Host) (type : TypeRef) : Prop where
  declared : ∃ index < host.system.types.length, type = .declared index
  named : (host.definition type).name ≠ ""
  alone : ∀ index < host.system.types.length,
    Text.segments (host.definition (.declared index)).space = Text.segments (host.definition type).space →
    (host.definition (.declared index)).name = (host.definition type).name → .declared index = type

namespace WellNamed

variable (named : host.WellNamed)

include named

theorem definition_core {index : Nat} (bound : index < TypeRef.coreCount) :
    host.system.definition (.declared index) = coreTypes[index]?.getD default := by
  rcases named.core with ⟨more, same⟩
  have declared : host.system.types[index]? = coreTypes[index]? := by
    rw [← same]
    exact List.getElem?_append_left bound
  rw [TypeSystem.definition, declared]

/-- A name that ends like that of an array type is that of an array type. -/
theorem exists_array {name : String} (same : (host.definition type).name = name ++ "[]") :
    ∃ element, type = .array element := by
  cases type with
  | array element => exact ⟨element, rfl⟩
  | declared index =>
      by_cases bound : index < host.system.types.length
      · refine absurd ?_ (named.bracketless _ (TypeSystem.definition_mem bound))
        rw [definition] at same
        rw [same, String.toList_append]
        exact List.suffix_append _ _
      · rw [definition, TypeSystem.definition, List.getElem?_eq_none (Nat.le_of_not_lt bound)] at same
        have empty := congrArg String.toList same
        rw [String.toList_append] at empty
        exact absurd (List.append_eq_nil_iff.mp empty.symm).2 (by decide)

/-- The array type of a type that is told apart has a path of its own. -/
theorem sole_array (toldApart : host.ToldApart type) : host.Sole (.array type) := by
  intro other same
  have last : (host.definition other).name = (host.definition type).name ++ "[]" := by
    rw [TypeSystem.segments_array] at same
    exact (List.append_singleton_inj.mp same).2
  rcases named.exists_array last with ⟨element, rfl⟩
  rcases TypeSystem.segments_array_eq_iff.mp same with ⟨space, name⟩
  cases element with
  | declared index =>
      by_cases bound : index < host.system.types.length
      · rw [toldApart.alone index bound space name]
      · rw [TypeSystem.definition, List.getElem?_eq_none (Nat.le_of_not_lt bound)] at name
        exact absurd name.symm toldApart.named
  | array inner =>
      -- A declared type has no name like that of an array of arrays.
      rcases toldApart.declared with ⟨index, bound, rfl⟩
      have bracketed : (host.definition (.declared index)).name = (host.definition inner).name ++ "[]" := name.symm
      rcases named.exists_array bracketed with ⟨_, impossible⟩
      cases impossible

end WellNamed

/-- What core types are like: they have names of their own, and ask for no types but their bases. -/
theorem core_facts : ∀ index < TypeRef.coreCount,
    (coreTypes[index]?.getD default).name ≠ "" ∧ ']' ∉ (coreTypes[index]?.getD default).name.toList ∧
    (coreTypes[index]?.getD default).fields.isEmpty = true ∧ (coreTypes[index]?.getD default).nested.isEmpty = true ∧
    (coreTypes[index]?.getD default).isEnumeration = false := by
  decide

/-- The core types that binding an array type asks for, and their bases. -/
theorem askedFor_facts : ∀ type ∈ [TypeRef.object, .arrayBase, .typeType], ∃ index < TypeRef.coreCount,
    type = .declared index ∧ (coreTypes[index]?.getD default).base.all (· = .object) = true := by
  decide

namespace WellNamed

variable (named : host.WellNamed)

include named

/-- The types that binding an array type asks for have no constants, no nested types and no members of enumerations. -/
theorem plain_of_askedFor {other : TypeRef}
    (isAsked : other = .array type ∨ other ∈ [TypeRef.object, .arrayBase, .typeType]) :
    (host.system.definition other).fields = [] ∧ (host.system.definition other).nested = [] ∧
      (host.system.definition other).isEnumeration = false := by
  rcases isAsked with rfl | listed
  · exact ⟨rfl, rfl, rfl⟩
  · rcases askedFor_facts other listed with ⟨index, bound, rfl, -⟩
    rcases core_facts index bound with ⟨-, -, fields, nested, plain⟩
    rw [named.definition_core bound]
    exact ⟨List.isEmpty_iff.mp fields, List.isEmpty_iff.mp nested, plain⟩

/-- An array type and the core types that binding it asks for are bound without a conflict. -/
theorem undisputed (toldApart : host.ToldApart type) :
    host.Undisputed fun other => other = .array type ∨ other ∈ [TypeRef.object, .arrayBase, .typeType] where
  typeType := .inr (by decide)
  base other base isAsked known := by
    rcases isAsked with rfl | listed
    · obtain rfl := Option.some.inj known
      exact .inr (by decide)
    · rcases askedFor_facts other listed with ⟨index, bound, rfl, bases⟩
      rw [TypeSystem.base?, named.definition_core bound] at known
      rw [known, Option.all_some, decide_eq_true_eq] at bases
      exact .inr (by rw [bases]; decide)
  noFields other isAsked := (named.plain_of_askedFor isAsked).1
  noNested other isAsked := (named.plain_of_askedFor isAsked).2.1
  noEnumeration other isAsked := (named.plain_of_askedFor isAsked).2.2
  sole other isAsked := by
    rcases isAsked with rfl | listed
    · exact named.sole_array toldApart
    · have alone := named.alone other listed
      rcases askedFor_facts other listed with ⟨index, bound, rfl, -⟩
      have facts := core_facts index bound
      rw [← named.definition_core bound] at facts
      exact fun _ same => TypeSystem.eq_of_segments_eq facts.1 facts.2.1 alone same

end WellNamed

variable {known : TypeRef → TableId → Prop} {world after later : World} {first second : ObjectRef} {shown : ScriptValue}

/-- In a surveyed context, an array of a type that is told apart is handed out without a conflict. -/
theorem WellNamed.not_conflicted_push (named : host.WellNamed) (toldApart : host.ToldApart type)
    (surveyed : world.context.Surveyed host known) (typed : world.store.typeOf? (.object first) = some (.array type)) :
    ¬Conflicted (exec (host.push (.object first)) world) :=
  not_conflicted_pushBy typed fun access mode =>
    (named.undisputed toldApart).not_conflicted_bindWithin named.apart _ (.inl rfl) access mode surveyed

/-- Handing out a value writes nothing into namespaces and tables of types but what belongs there. -/
theorem unwritten_push (value : HostValue) (world : World) : host.Unwritten world (exec (host.push value) world).2 := by
  have performed : host.Unwritten world (exec (host.perform (.push value)) world).2 := unwritten_perform rfl world
  rwa [perform, answerBind, exec_map, exec_adapt] at performed

/-- The type of an instance that was handed out is known to be at a table from then on. -/
theorem exists_known_of_push (apart : host.NamesApart) (surveyed : world.context.Surveyed host known)
    (typed : world.store.typeOf? (.object first) = some type)
    (run : exec (host.push (.object first)) world = (.ok shown, after)) :
    ∃ table, after.context.Surveyed host fun other id => known other id ∨ other = type ∧ id = table := by
  have surveyedAfter := surveyed_changes apart surveyed (unwritten_push (.object first) world)
  rw [run] at surveyedAfter
  rcases Option.isSome_iff_exists.mp (isBound_of_pushBy rfl typed run) with ⟨binding, bound⟩
  exact ⟨_, surveyedAfter.remember (surveyedAfter.wired.placed type binding bound)⟩

/--
Arrays are told apart as their element types are when what encloses these is left out. The full names of two array
types are the same exactly if those of the element types are, so taken, and so are their paths; array types of
registered types that are not nested are told apart as these are. In every state that a context reaches without
anybody writing into its namespaces and tables of types, arrays of types that are told apart like that are handed out
in any order without a conflict. Of two array types with one path, only one can be in a context: once an array of the
one was handed out, no array of the other ever is.
-/
theorem arrays_toldApart (named : host.WellNamed) {start world : World} {config : Config} {tag : CacheTag}
    (fresh : start.context = .fresh config tag) (unwritten : host.Unwritten start world) :
    (∀ left right, host.fullName (.array left) = host.fullName (.array right) ↔
      extendPath (host.definition left).space (host.definition left).name =
        extendPath (host.definition right).space (host.definition right).name) ∧
    (∀ left right, host.system.segments (.array left) = host.system.segments (.array right) ↔
      Text.segments (host.definition left).space = Text.segments (host.definition right).space ∧
        (host.definition left).name = (host.definition right).name) ∧
    (∀ left right, host.IsRegistered left → host.IsRegistered right → left ≠ right →
      host.system.segments left ≠ host.system.segments right →
      (host.definition left).enclosing = [] → (host.definition right).enclosing = [] →
      host.fullName (.array left) ≠ host.fullName (.array right) ∧
        host.system.segments (.array left) ≠ host.system.segments (.array right)) ∧
    (∀ left right first second, host.ToldApart left → host.ToldApart right →
      world.store.typeOf? (.object first) = some (.array left) →
      world.store.typeOf? (.object second) = some (.array right) →
      ¬Conflicted (exec (host.push (.object first)) world) ∧
        ¬Conflicted (exec (host.push (.object second)) (exec (host.push (.object first)) world).2)) ∧
    ∀ left right first second shown after later, left ≠ right →
      host.system.segments (.array left) = host.system.segments (.array right) →
      world.store.typeOf? (.object first) = some (.array left) →
      exec (host.push (.object first)) world = (.ok shown, after) → host.Unwritten after later →
      later.store.typeOf? (.object second) = some (.array right) →
      (exec (host.push (.object second)) later).1.isOk = false := by
  have surveyed := surveyed_changes named.apart (fresh ▸ Context.surveyed_fresh host config tag) unwritten
  refine ⟨fun _ _ => TypeSystem.fullName_array_eq_iff, fun _ _ => TypeSystem.segments_array_eq_iff,
    fun _ _ registered registeredToo different apart top topToo =>
      arrays_ne_of_top registered registeredToo top topToo different apart, ?_, ?_⟩
  · intro left right first second toldApart toldApartToo typed typedToo
    refine ⟨named.not_conflicted_push toldApart surveyed typed, ?_⟩
    have unchanged : (exec (host.push (.object first)) world).2.store = world.store :=
      store_eq_of_bindSteps (binds_pushBy binds_bindWith (.object first) world)
    rw [← unchanged] at typedToo
    have surveyedThen := surveyed_changes named.apart surveyed (unwritten_push (.object first) world)
    exact named.not_conflicted_push toldApartToo surveyedThen typedToo
  · intro left right first second shown after later different same typed run unwrittenOn typedToo
    rcases exists_known_of_push named.apart surveyed typed run with ⟨table, known⟩
    have knownLater := surveyed_changes named.apart known unwrittenOn
    refine Bool.eq_false_iff.mpr fun succeeded => ?_
    rcases exists_ok_of_isOk succeeded with ⟨shownToo, runToo⟩
    rcases exists_known_of_push named.apart knownLater typedToo runToo with ⟨other, both⟩
    have one := both.eq_of_segments_eq (.inl (.inr ⟨rfl, rfl⟩)) (.inr ⟨rfl, rfl⟩) same.symm
    exact different (TypeRef.array.inj one).symm

end Host

end ScriptBridge

namespace ScriptBridge.Realm

open Bridge

def tile : TypeDef := TypeDef.ofClass "Game" "Tile"

def troop : TypeDef := TypeDef.ofClass "Game" "Troop"

/-- Two classes of one namespace, and an array of each. -/
def tilesMade : Realm :=
  core.actAll [.declare tile, .declare troop, .make (.array (.declared 14) []), .make (.array (.declared 15) [])]

/-- A context that was just opened beside the arrays. -/
def tilesOpened : World := ⟨tilesMade.store, .fresh .standard ⟨1⟩, []⟩

theorem wellNamed_tiles : tilesMade.host.WellNamed where
  core := @precedes_actAll core _
  alone := by decide +kernel
  bracketless := by decide +kernel
  apart := Host.namesApart_of_memberless (by decide +kernel) (by decide +kernel) (by decide +kernel)

theorem toldApart_tiles : tilesMade.host.ToldApart (.declared 14) ∧ tilesMade.host.ToldApart (.declared 15) := by
  constructor
  · exact ⟨⟨14, by decide +kernel, rfl⟩, by decide +kernel, by decide +kernel⟩
  · exact ⟨⟨15, by decide +kernel, rfl⟩, by decide +kernel, by decide +kernel⟩

/-- An array of tiles and then an array of troops are handed out, or an array of troops first. -/
theorem arrays_toldApart_tiles :
    let tiles : HostValue := .object ⟨0⟩
    let troops : HostValue := .object ⟨1⟩
    ¬Host.Conflicted (exec (tilesMade.host.push troops) (exec (tilesMade.host.push tiles) tilesOpened).2) ∧
      ¬Host.Conflicted (exec (tilesMade.host.push tiles) (exec (tilesMade.host.push troops) tilesOpened).2) := by
  intro tiles troops
  rcases toldApart_tiles with ⟨tilesApart, troopsApart⟩
  have isTiles : tilesOpened.store.typeOf? tiles = some (.array (.declared 14)) := by decide +kernel
  have isTroops : tilesOpened.store.typeOf? troops = some (.array (.declared 15)) := by decide +kernel
  have stays : tilesMade.host.Unwritten tilesOpened tilesOpened := .refl
  rcases Host.arrays_toldApart wellNamed_tiles rfl stays with ⟨-, -, -, handed, -⟩
  exact ⟨(handed _ _ _ _ tilesApart troopsApart isTiles isTroops).2,
    (handed _ _ _ _ troopsApart tilesApart isTroops isTiles).2⟩

def gridCell : TypeDef := { TypeDef.ofClass "Game" "Cell" with enclosing := ["Grid"] }

def boardCell : TypeDef := { TypeDef.ofClass "Game" "Cell" with enclosing := ["Board"] }

def gridAround : TypeDef := { TypeDef.ofClass "Game" "Grid" with nested := [.declared 14] }

def boardAround : TypeDef := { TypeDef.ofClass "Game" "Board" with nested := [.declared 15] }

/-- Cells of grids and cells of boards, and an array of each. -/
def cellsMade : Realm :=
  core.actAll [.declare gridCell, .declare boardCell, .declare gridAround, .declare boardAround,
    .register (.declared 16), .register (.declared 17), .make (.array (.declared 14) []), .make (.array (.declared 15) [])]

def cellsOpened : World := ⟨cellsMade.store, .fresh .standard ⟨1⟩, []⟩

theorem wellNamed_cells : cellsMade.host.WellNamed where
  core := @precedes_actAll core _
  alone := by decide +kernel
  bracketless := by decide +kernel
  apart := Host.namesApart_of_memberless (by decide +kernel) (by decide +kernel) (by decide +kernel)

theorem registered_cells : (cellsMade.host.IsRegistered (.declared 14) ∧ cellsMade.host.IsRegistered (.declared 15)) ∧
    cellsMade.host.system.segments (.declared 14) ≠ cellsMade.host.system.segments (.declared 15) := by
  decide +kernel

/-- The error of a run, if it ends with one. -/
def errorOf? {ε α : Type} (run : Except ε α × World) : Option ε :=
  match run.1 with
  | .ok _ => none
  | .error error => some error

/-- The array of cells of grids was handed out. -/
def gridCellsHanded : World := (exec (cellsMade.host.push (.object ⟨0⟩)) cellsOpened).2

theorem conflicted_cells : Host.Conflicted (exec (cellsMade.host.push (.object ⟨1⟩)) gridCellsHanded) := by
  have failed : errorOf? (exec (cellsMade.host.push (.object ⟨1⟩)) gridCellsHanded) =
      some (.namespaceConflict "Game.Cell[]" "Game.Cell[]") := by
    decide +kernel
  revert failed
  generalize exec (cellsMade.host.push (.object ⟨1⟩)) gridCellsHanded = run
  intro failed
  rcases run with ⟨result, after⟩
  cases result with
  | ok => cases failed
  | error error => exact ⟨_, _, congrArg Except.error (Option.some.inj failed)⟩

/--
Registered types with different paths, and with names without brackets, may have array types of one full name and one
path. An array of the one that is handed out then is in the way of the other.
-/
theorem not_forall_arrays_toldApart :
    (¬∀ (host : Host) (left right : TypeRef), host.WellNamed → host.IsRegistered left → host.IsRegistered right →
      left ≠ right → host.system.segments left ≠ host.system.segments right →
      host.fullName (.array left) ≠ host.fullName (.array right) ∨
        host.system.segments (.array left) ≠ host.system.segments (.array right)) ∧
    ¬∀ (host : Host) (start world : World) (config : Config) (tag : CacheTag) (left right : TypeRef)
        (first second : ObjectRef),
      host.WellNamed → start.context = .fresh config tag → host.Unwritten start world →
      host.IsRegistered left → host.IsRegistered right → left ≠ right →
      host.system.segments left ≠ host.system.segments right →
      world.store.typeOf? (.object first) = some (.array left) →
      world.store.typeOf? (.object second) = some (.array right) →
      ¬Host.Conflicted (exec (host.push (.object second)) (exec (host.push (.object first)) world).2) := by
  rcases registered_cells with ⟨⟨registered, registeredToo⟩, apart⟩
  have different : TypeRef.declared 14 ≠ .declared 15 := by decide
  constructor
  · intro claim
    have same : cellsMade.host.fullName (.array (.declared 14)) = cellsMade.host.fullName (.array (.declared 15)) ∧
        cellsMade.host.system.segments (.array (.declared 14)) =
          cellsMade.host.system.segments (.array (.declared 15)) := by
      decide +kernel
    rcases claim _ _ _ wellNamed_cells registered registeredToo different apart with names | paths
    · exact names same.1
    · exact paths same.2
  · intro claim
    exact claim cellsMade.host cellsOpened cellsOpened .standard ⟨1⟩ (.declared 14) (.declared 15) ⟨0⟩ ⟨1⟩
      wellNamed_cells rfl .refl registered registeredToo different apart (by decide +kernel) (by decide +kernel) conflicted_cells

end ScriptBridge.Realm
