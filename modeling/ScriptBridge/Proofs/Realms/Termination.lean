import ScriptBridge.Proofs.Realms.Actions
import ScriptBridge.Proofs.Steps.Depth

/-!
# Binding comes to an end

Binding follows what the constants of types refer to, which need not be a tree. It still
ends, since no chain of calls is longer than there is depth for, whatever the fields hold
and whichever types are bound already.
-/

namespace ScriptBridge

namespace Host

open Bridge

/--
Binding a type from any world ends with the type's table or an error of its own, and never because no depth is left.
With more depth it comes to the same. It is one step of the recursion that asks itself for other types, without any
bound on the depth, and everything else that follows this recursion does what it does.
-/
theorem bindWith_terminates (host : Host) (type : TypeRef) (access : MemberAccess) (mode : BindingMode) (world : World) :
    (exec (host.bindWith type access mode) world).1 ≠ .error .tooDeep ∧
    (∀ more, exec (host.bindWithin (host.bindingDepth + more) type access mode) world =
      exec (host.bindWith type access mode) world) ∧
    exec (host.bindWith type access mode) world = exec (host.unfolded host.bindWith type access mode) world ∧
    ∀ binder : Binder, (∀ type access mode world,
        exec (binder type access mode) world = exec (host.unfolded binder type access mode) world) →
      exec (binder type access mode) world = exec (host.bindWith type access mode) world := by
  have deep {ways : Nat → Binder} (follows : ∀ depth type access mode world,
      exec (ways (depth + 1) type access mode) world = exec (host.unfolded (ways depth) type access mode) world)
      {depth : Nat} (enough : host.bindingDepth ≤ depth) :=
    host.agreeFrom_bindWith follows enough type access mode world
  refine ⟨?_, fun more => ?_, ?_, fun binder follows => ?_⟩
  · exact (deep host.exec_bindWithin_succ (Nat.le_refl _)).shallow
  · exact (deep host.exec_bindWithin_succ (Nat.le_add_right _ more)).same.symm
  · rw [← host.bindWith_eq_unfolded]
  · exact (@deep (fun _ => binder) (fun _ => follows) _ (Nat.le_refl _)).same.symm

end Host

namespace Realm

/-- A class with a constant that is a square. -/
def shape : TypeDef :=
  { TypeDef.ofClass "Game" "Shape" with
    fields := [{ FieldDef.named "Unit" (.declared 14) (.object ⟨0⟩) with isStatic := true, isReadonly := true }] }

/-- A class of shapes with a constant that is a shape. -/
def square : TypeDef :=
  { TypeDef.ofClass "Game" "Square" with
    base := some (.declared 14)
    fields := [{ FieldDef.named "Any" (.declared 14) (.object ⟨1⟩) with isStatic := true, isReadonly := true }] }

/-- A square and a shape that the classes of both refer to. -/
def shapesMade : List Action :=
  [.declare shape, .declare square, .make (.newObject (.declared 15)), .make (.newObject (.declared 14))]

end Realm

open Bridge in
/-- A shape is bound with the squares that its constant asks for, although the squares are shapes. -/
theorem Host.bindWith_terminates_shapesMade :
    let realm := Realm.core.actAll Realm.shapesMade
    let world : World := ⟨realm.store, .fresh .standard ⟨0⟩, []⟩
    let run := exec (realm.host.bindWith (.declared 14) .visibleOnly .eager) world
    (run.1.isOk = true ∧ run.2.context.isBound (.declared 15) = true) ∧
      exec (realm.host.unfolded realm.host.bindWith (.declared 14) .visibleOnly .eager) world = run := by
  intro realm world run
  refine ⟨by decide +kernel, (bindWith_terminates realm.host (.declared 14) .visibleOnly .eager world).2.2.2 _ ?_⟩
  intro type access mode world
  rw [← realm.host.bindWith_eq_unfolded, ← realm.host.bindWith_eq_unfolded]

end ScriptBridge
