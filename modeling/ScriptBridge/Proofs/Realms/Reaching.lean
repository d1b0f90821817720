import ScriptBridge.Proofs.Namespaces.Declared
import ScriptBridge.Proofs.Namespaces.Reaching
import ScriptBridge.Proofs.Realms.Actions

/-!
# Loading a type and walking to it

Loading a registered type and walking its dotted path lead to one table, unless a
type that is nested in it was bound first. Then a namespace stands in the place of
the enclosing type, and the walk ends there.
-/

namespace ScriptBridge.Realm

open Bridge

def cell : TypeDef := { TypeDef.ofClass "Game" "Cell" with enclosing := ["Grid"] }

def grid : TypeDef := { TypeDef.ofClass "Game" "Grid" with nested := [.declared 14] }

/-- Cells are declared before the grids that they are nested in. -/
def gridRegistered : Realm :=
  core.actAll [.declare cell, .declare grid, .register (.declared 14), .register (.declared 15)]

theorem memberless_grid : gridRegistered.host.system.types.all TypeDef.isMemberless = true := by decide +kernel

theorem named_grid : ∀ type ∈ gridRegistered.host.registry.types,
    ∀ name ∈ gridRegistered.host.system.segments type,
      (Text.IsName name ∧ '+' ∉ name.toList) ∧ ']' ∉ name.toList := by
  decide +kernel

theorem eq_of_encloses_grid {outer nested : TypeRef} (outerRegistered : gridRegistered.host.IsRegistered outer)
    (nestedRegistered : gridRegistered.host.IsRegistered nested) (encloses : gridRegistered.host.Encloses outer nested) :
    outer = .declared 15 ∧ nested = .declared 14 := by
  have only : ∀ outer ∈ gridRegistered.host.registry.types, ∀ nested ∈ gridRegistered.host.registry.types,
      (gridRegistered.host.definition nested).enclosing =
        (gridRegistered.host.definition outer).enclosing ++ [(gridRegistered.host.definition outer).name] →
      outer = .declared 15 ∧ nested = .declared 14 := by
    decide +kernel
  exact only outer outerRegistered.mem nested nestedRegistered.mem encloses.enclosing

theorem unambiguous_grid : gridRegistered.host.Unambiguous where
  keyed name type found := by
    have keyed : ∀ entry ∈ gridRegistered.host.registry.byName.entries,
        gridRegistered.host.fullName entry.2 = entry.1 := by
      decide +kernel
    rw [Registry.get?] at found
    exact keyed (name, type) (FinMap.mem_entries_of_get? found)
  named type registered name listed := (named_grid type registered.mem name listed).1
  spelled type registered := by
    have spelled : ∀ type ∈ gridRegistered.host.registry.types,
        NamespaceTree.dotted (Text.segments (gridRegistered.host.definition type).space) =
          (gridRegistered.host.definition type).space := by
      decide +kernel
    exact spelled type registered.mem
  distinct type registered other same := by
    have declared : ∀ type ∈ gridRegistered.host.registry.types, ∀ index < gridRegistered.host.system.types.length,
        gridRegistered.host.system.segments (.declared index) = gridRegistered.host.system.segments type →
        TypeRef.declared index = type := by
      decide +kernel
    have last := named_grid type registered.mem _ (TypeSystem.name_mem_segments _ type)
    exact TypeSystem.eq_of_segments_eq last.1.1.1 last.2 (declared type registered.mem) same
  spaces type listed := by
    have spaces : ∀ type ∈ gridRegistered.host.registry.types,
        (∀ name ∈ Text.segments (gridRegistered.host.definition type).space, ']' ∉ name.toList) ∧
          ∀ definition ∈ gridRegistered.host.system.types,
            definition.name ∉ Text.segments (gridRegistered.host.definition type).space := by
      decide +kernel
    exact TypeSystem.not_prefix_segments (spaces type listed).1 (spaces type listed).2
  enclosed nested registered around := by
    have only : ∀ nested ∈ gridRegistered.host.registry.types,
        (gridRegistered.host.definition nested).enclosing ≠ [] → nested = .declared 14 := by
      decide +kernel
    rw [only nested registered.mem around]
    exact ⟨.declared 15, by decide +kernel, ⟨by decide +kernel, by decide +kernel⟩⟩
  apart := by
    refine Host.namesApart_of_memberless memberless_grid ?_ ?_
    · decide +kernel
    · decide +kernel
  members outer nested _ _ _ ancestor _ member declared isStatic := by
    rw [TypeSystem.isStatic_eq_false_of_memberless memberless_grid declared] at isStatic
    cases isStatic
  bases outer nested outerRegistered nestedRegistered encloses ancestor listed := by
    rcases eq_of_encloses_grid outerRegistered nestedRegistered encloses with ⟨rfl, rfl⟩
    have bases : gridRegistered.host.system.ancestors (.declared 15) = [.object] := by decide +kernel
    have called : (gridRegistered.host.definition (.declared 14)).name = "Cell" := by decide +kernel
    rw [bases, List.mem_singleton] at listed
    rw [listed, called]
    refine ⟨fun enters => ?_, Host.not_leads ?_ ?_ ?_ ?_⟩
    · have reserved := Host.enters_of_memberless memberless_grid enters
      exact absurd reserved (by decide)
    all_goals decide +kernel

/-- A context that was just opened on the host. -/
def gridOpened : World := ⟨gridRegistered.store, .fresh .standard ⟨1⟩, []⟩

theorem fresh_gridOpened : gridOpened.context = .fresh .standard ⟨1⟩ := rfl

theorem registered_grid : gridRegistered.host.IsRegistered (.declared 15) := by decide +kernel

/-- A grid that is loaded before the nested type is bound is found again after that. -/
theorem reaches_registered_grid :
    let pushed := (exec (gridRegistered.host.perform (.push (.type (.declared 15)))) gridOpened).2
    ∃ table loaded, exec (gridRegistered.host.loadClass (.declared 15)) pushed = (.ok (.table table), loaded) ∧
      let bound := (exec (gridRegistered.host.perform (.bind (.declared 14))) loaded).2
      exec (gridRegistered.host.global "Game.Grid") bound = (.ok (.table table), bound) := by
  intro pushed
  have loads : (exec (gridRegistered.host.loadClass (.declared 15)) pushed).1.isOk = true := by decide +kernel
  have path : gridRegistered.host.dottedPath (.declared 15) = "Game.Grid" := by decide +kernel
  have unwritten : gridRegistered.host.Unwritten gridOpened pushed := Host.unwritten_perform rfl gridOpened
  rcases exists_ok_of_isOk loads with ⟨value, run⟩
  have reaches := Host.reaches_registered unambiguous_grid fresh_gridOpened unwritten registered_grid
  rcases reaches.1 value _ run with ⟨table, rfl, settled⟩
  refine ⟨table, _, run, ?_⟩
  rw [← path]
  exact (settled _ (Host.unwritten_perform rfl _)).1

/-- After the nested type is bound, walking to the enclosing type and loading it lead to different tables. -/
theorem exists_hidden_grid :
    let world := (exec (gridRegistered.host.perform (.bind (.declared 14))) gridOpened).2
    let walked := exec (gridRegistered.host.global (gridRegistered.host.dottedPath (.declared 15))) world
    let loaded := exec (gridRegistered.host.loadClass (.declared 15)) walked.2
    (exec (gridRegistered.host.loadClass (.declared 15)) world).1.isOk = true ∧
      walked.1.toOption.bind ScriptValue.asTable? = some ⟨5⟩ ∧
      loaded.1.toOption.bind ScriptValue.asTable? = some ⟨7⟩ := by
  decide +kernel

/--
A registered type can be bound, nobody has written into namespaces or tables of
types, and yet walking its dotted path does not lead to the table it is loaded to.
-/
theorem not_forall_global_eq_loadClass :
    ¬∀ (host : Host) (start world : World) (config : Config) (tag : CacheTag) (type : TypeRef) (value : ScriptValue)
        (loaded : World),
      host.Unambiguous → start.context = .fresh config tag → host.Unwritten start world → host.IsRegistered type →
      exec (host.loadClass type) world = (.ok value, loaded) →
      ∃ table after, exec (host.global (host.dottedPath type)) world = (.ok (.table table), after) ∧
        (exec (host.loadClass type) after).1 = .ok (.table table) := by
  intro claim
  have unwritten : gridRegistered.host.Unwritten gridOpened
      (exec (gridRegistered.host.perform (.bind (.declared 14))) gridOpened).2 := Host.unwritten_perform rfl gridOpened
  rcases exists_hidden_grid with ⟨loads, walks, loadsToo⟩
  rcases exists_ok_of_isOk loads with ⟨value, run⟩
  rcases claim _ _ _ _ _ _ value _ unambiguous_grid fresh_gridOpened unwritten registered_grid run with
    ⟨table, after, walked, loaded⟩
  rw [walked] at walks loadsToo
  rw [loaded] at loadsToo
  have same : some (⟨5⟩ : TableId) = some ⟨7⟩ := walks.symm.trans loadsToo
  cases same

end ScriptBridge.Realm
