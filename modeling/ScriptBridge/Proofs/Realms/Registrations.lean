import ScriptBridge.Proofs.Host.Registration
import ScriptBridge.Proofs.Realms.Assignability

/-!
# Registrations that fail

A type that cannot be registered leaves its outer types registered, and a type that is
registered is not looked into again. After a failure the registry has types without all
that is nested in them, and a registration that succeeds need not add what is missing.
-/

namespace ScriptBridge

namespace Registry

/--
What registering a type does to any registry. Names that were found are found as before, and a name that is new is
the full name of the type or of one nested in it. If the name of the type itself is taken, nothing changes; any other
failure comes from a name in the type that another type has, and keeps what was registered before it. A registration
that succeeds registers the type. If none has failed before, it registers all that is nested in the type as well, and
it succeeds if and only if no name is taken by another type.
-/
theorem register_extends (system : TypeSystem) (registry : Registry) (type : TypeRef) :
    let run := exec (register system type) registry
    (∀ name known, registry.get? name = some known → run.2.get? name = some known) ∧
    (∀ name known, run.2.get? name = some known →
      registry.get? name = some known ∨ name = system.fullName known ∧ system.Encloses type known) ∧
    (∀ other, registry.get? (system.fullName type) = some other →
      run = (if other = type then .ok () else .error (.duplicateType (system.fullName type)), registry)) ∧
    (∀ error, run.1 = .error error → ∃ clash other, system.Encloses type clash ∧ other ≠ clash ∧
      run.2.get? (system.fullName clash) = some other ∧ error = .duplicateType (system.fullName clash)) ∧
    (run.1 = .ok () → run.2.get? (system.fullName type) = some type) ∧
    (TypeSystem.core.Precedes system → Clean system registry →
      (run.1 = .ok () → ∀ inner, system.Encloses type inner → run.2.get? (system.fullName inner) = some inner) ∧
      (run.1 = .ok () ↔ registry.Clear system type)) := by
  intro run
  have registers := registers_register system type registry
  have single {inner : TypeRef} : (∃ outer ∈ [type], system.Encloses outer inner) → system.Encloses type inner := by
    rintro ⟨outer, listed, encloses⟩
    exact List.mem_singleton.mp listed ▸ encloses
  refine ⟨fun _ _ => registers.get?_of_get?, fun name known found => ?_, fun other found => ?_,
    fun error failed => ?_, fun succeeded => ?_, fun precedes clean => ?_⟩
  · exact (registers.get?_or_enclosed found).imp_right fun ⟨own, enclosed⟩ => ⟨own, single enclosed⟩
  · simp only [run, register, exec_registerWithin_succ, found]
  · rw [failed] at registers
    rcases registers.exists_clash_of_error with ⟨clash, other, enclosed, rest⟩
    exact ⟨clash, other, single enclosed, rest⟩
  · rw [succeeded] at registers
    exact registers.get?_of_ok List.mem_cons_self
  · have all (succeeded : run.1 = .ok ()) (inner : TypeRef) (encloses : system.Encloses type inner) :
        run.2.get? (system.fullName inner) = some inner := by
      rw [succeeded] at registers
      have whole := registers.whole ((clean.whole precedes).but [type])
      exact whole.get?_of_encloses (registers.get?_of_ok List.mem_cons_self) encloses
    exact ⟨all, fun succeeded => registers.clear (all succeeded), registers.ok_of_clear⟩

end Registry

namespace Realm

def piston : TypeDef := { TypeDef.ofClass "Game" "Piston" with enclosing := ["Engine"] }

/-- A type with another nested in it. -/
def engine : TypeDef := { TypeDef.ofClass "Game" "Engine" with nested := [.declared 15] }

/-- There are two types of the name of the piston; the later one is nested in the engine. -/
def engineDeclared : List Action := [.declare piston, .declare piston, .declare engine]

end Realm

/-- The engine is registered with the piston that is nested in it. -/
theorem Registry.register_extends_engineDeclared :
    let system := (Realm.core.actAll Realm.engineDeclared).system
    let run := exec (register system (.declared 16)) .core
    run.1 = .ok () ∧ run.2.get? (system.fullName (.declared 15)) = some (.declared 15) := by
  intro system run
  have succeeded : run.1 = .ok () := by decide +kernel
  have nested : (.declared 15 : TypeRef) ∈ (system.definition (.declared 16)).nested := by decide +kernel
  have precedes : TypeSystem.core.Precedes system := @Realm.precedes_actAll .core Realm.engineDeclared
  have whole := (register_extends system .core (.declared 16)).2.2.2.2.2 precedes .core
  exact ⟨succeeded, whole.1 succeeded _ (TypeSystem.encloses_of_nested nested)⟩

namespace Realm

/-- The piston that is not nested in the engine is registered. -/
def pistonRegistered : List Action := engineDeclared ++ [.register (.declared 14)]

/-- After that, the engine could not be registered. -/
def engineRefused : List Action := pistonRegistered ++ [.register (.declared 16)]

/--
A registration is not all or nothing. Once the other piston is registered, the engine cannot be registered, but is
found by its name afterwards; and registering it once more succeeds, although the piston nested in it is not found.
-/
theorem not_forall_registrations_whole :
    (¬∀ (actions : List Action) (type : TypeRef),
      ((core.actAll actions).register type).1 ≠ .ok () →
        ∀ name, ((core.actAll actions).register type).2.registry.get? name =
          (core.actAll actions).registry.get? name) ∧
    ¬∀ (actions : List Action) (type : TypeRef),
      ((core.actAll actions).register type).1 = .ok () → ∀ inner, (core.actAll actions).system.Encloses type inner →
        ((core.actAll actions).register type).2.registry.get? ((core.actAll actions).system.fullName inner) =
          some inner := by
  constructor
  · intro claim
    have fails : ((core.actAll pistonRegistered).register (.declared 16)).1 ≠ .ok () := by decide +kernel
    have before : (core.actAll pistonRegistered).registry.get? "Game.Engine" = none := by decide +kernel
    have after : ((core.actAll pistonRegistered).register (.declared 16)).2.registry.get? "Game.Engine" =
        some (.declared 16) := by
      decide +kernel
    have same := claim pistonRegistered (.declared 16) fails "Game.Engine"
    rw [after, before] at same
    cases same
  · intro claim
    have succeeds : ((core.actAll engineRefused).register (.declared 16)).1 = .ok () := by decide +kernel
    have nested : (.declared 15 : TypeRef) ∈ ((core.actAll engineRefused).system.definition (.declared 16)).nested := by
      decide +kernel
    have other : ((core.actAll engineRefused).register (.declared 16)).2.registry.get?
        ((core.actAll engineRefused).system.fullName (.declared 15)) = some (.declared 14) := by
      decide +kernel
    have found := claim engineRefused (.declared 16) succeeds (.declared 15) (TypeSystem.encloses_of_nested nested)
    rw [other] at found
    exact absurd found (by decide)

end Realm

end ScriptBridge
