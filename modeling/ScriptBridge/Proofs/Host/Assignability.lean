import ScriptBridge.Proofs.Conversion.Soundness
import ScriptBridge.Proofs.Host.Lineage
import ScriptBridge.Proofs.Tables.Declared

/-!
# Assignability as an order

A type is assignable to another through the type of all objects, up its base chain,
through an interface that it or an ancestor lists, or element by element. Every step but
the last leads to a type that stands lower, so that no two types are assignable to each
other. Interfaces are followed for one step only: the order is transitive if and only if
each type can be assigned to everything that the interfaces that it lists are assignable
to, and none descends from an array type of references other than that of objects.
-/

namespace ScriptBridge

namespace TypeSystem

/-- Every type lists only interfaces that stand lower than it does. -/
def ListsEarlier (system : TypeSystem) : Prop :=
  ∀ index interface, interface ∈ (system.definition (.declared index)).interfaces → interface.rank < 2 * index

/-- Nothing is missing from the lists of interfaces, and nothing descends from an array type that others convert to. -/
structure Flattened (system : TypeSystem) : Prop where
  interfaces : ∀ type interface, interface ∈ (system.definition type).interfaces →
    (system.definition interface).isInterface = true →
    ∀ target, system.isDirectlyAssignable interface target = true → system.isDirectlyAssignable type target = true
  arrays : ∀ type element, system.base? type = some (.array element) →
    (system.definition element).isValueType = true ∨ element = .object

variable {system : TypeSystem} {source middle target : TypeRef}

theorem isDirectlyAssignable_iff : system.isDirectlyAssignable source target = true ↔
    target = .object ∨ target ∈ system.lineage source ∨
      (system.definition target).isInterface = true ∧
        ∃ lister ∈ system.lineage source, target ∈ (system.definition lister).interfaces := by
  simp [isDirectlyAssignable, isSameOrSubclass, implementsInterface, or_assoc]

theorem isAssignable_of_direct (direct : system.isDirectlyAssignable source target = true) :
    system.isAssignable source target = true := by
  unfold isAssignable
  rw [direct, Bool.true_or]

theorem isAssignable_iff : system.isAssignable source target = true ↔
    system.isDirectlyAssignable source target = true ∨
      ∃ inner outer, source = .array inner ∧ target = .array outer ∧
        (system.definition inner).isValueType = false ∧ system.isAssignable inner outer = true := by
  conv_lhs => unfold isAssignable
  cases source with
  | declared index => simp
  | array inner => cases target <;> simp

theorem isDirectlyAssignable_of_lineage (member : middle ∈ system.lineage source)
    (direct : system.isDirectlyAssignable middle target = true) :
    system.isDirectlyAssignable source target = true := by
  rw [isDirectlyAssignable_iff] at direct ⊢
  rcases direct with object | above | ⟨interface, lister, above, listed⟩
  · exact .inl object
  · exact .inr (.inl (mem_lineage_trans member above))
  · exact .inr (.inr ⟨interface, lister, mem_lineage_trans member above, listed⟩)

/-- A step that does not look inside of array types stays or goes down. -/
theorem eq_or_rank_lt_of_direct (earlier : system.ListsEarlier)
    (direct : system.isDirectlyAssignable source target = true) :
    source = target ∨ target.rank < source.rank := by
  rcases isDirectlyAssignable_iff.mp direct with rfl | above | ⟨interface, lister, above, listed⟩
  · rcases source with ⟨_ | index⟩ | element
    · exact .inl rfl
    · exact .inr (by simp [TypeRef.object, TypeRef.rank])
    · exact .inr (by simp [TypeRef.object, TypeRef.rank, TypeRef.coreCount])
  · exact (eq_or_rank_lt_of_mem_lineage above).imp_left Eq.symm
  · have lower : target.rank < lister.rank := by
      rcases lister with index | element
      · exact earlier index target listed
      · cases listed
    rcases eq_or_rank_lt_of_mem_lineage above with rfl | below
    · exact .inr lower
    · exact .inr (Nat.lt_trans lower below)

/-- Only steps from one array type to another lead to another type of the same height. -/
theorem eq_or_rank_lt_or_array (earlier : system.ListsEarlier) (assignable : system.isAssignable source target = true) :
    (source = target ∨ target.rank < source.rank) ∨
      ∃ inner outer, source = .array inner ∧ target = .array outer ∧ system.isAssignable inner outer = true :=
  (isAssignable_iff.mp assignable).imp (eq_or_rank_lt_of_direct earlier)
    fun ⟨inner, outer, from_array, to_array, _, inside⟩ => ⟨inner, outer, from_array, to_array, inside⟩

/-- No two types are assignable to each other. -/
theorem isAssignable_antisymm (earlier : system.ListsEarlier) (forth : system.isAssignable source target = true)
    (back : system.isAssignable target source = true) : source = target := by
  induction source generalizing target with
  | declared index =>
      rcases eq_or_rank_lt_or_array earlier forth with (same | lower) | ⟨_, _, impossible, -⟩
      · exact same
      · rcases eq_or_rank_lt_or_array earlier back with (same | higher) | ⟨_, _, -, impossible, -⟩
        · exact same.symm
        · omega
        · cases impossible
      · cases impossible
  | array element ih =>
      rcases eq_or_rank_lt_or_array earlier forth with (same | lower) | ⟨inner, outer, from_array, rfl, inside⟩
      · exact same
      · rcases eq_or_rank_lt_or_array earlier back with (same | higher) | ⟨_, _, rfl, -⟩
        · exact same.symm
        · omega
        · exact absurd lower (Nat.lt_irrefl _)
      · rcases eq_or_rank_lt_or_array earlier back with (same | higher) | ⟨_, _, again, to_array, outside⟩
        · exact same.symm
        · exact absurd higher (Nat.lt_irrefl _)
        · obtain rfl := TypeRef.array.inj again
          obtain rfl := TypeRef.array.inj to_array
          obtain rfl := TypeRef.array.inj from_array
          rw [ih inside outside]

section

variable (extends_core : TypeSystem.core.Precedes system)

include extends_core

theorem definition_of_core {index : Nat} (bound : index < TypeRef.coreCount) :
    system.definition (.declared index) = TypeSystem.core.definition (.declared index) := by
  rcases extends_core with ⟨more, extended⟩
  rw [definition, definition, ← extended, List.getElem?_append_left bound]

theorem lineage_object : system.lineage .object = [.object] := by
  have none : system.base? .object = none := by
    rw [base?, TypeRef.object, definition_of_core extends_core (by decide)]
    rfl
  rw [lineage, ancestors_of_no_base none]

theorem lineage_array (element : TypeRef) :
    system.lineage (.array element) = [.array element, .arrayBase, .object] := by
  have above : system.base? .arrayBase = some .object := by
    rw [base?, TypeRef.arrayBase, definition_of_core extends_core (by decide)]
    rfl
  rw [lineage, ancestors_of_base? (show system.base? (.array element) = some .arrayBase from rfl), lineage,
    ancestors_of_base? above, lineage_object extends_core]

theorem isDirectlyAssignable_object : system.isDirectlyAssignable .object target = true ↔ target = .object := by
  have none : (system.definition .object).interfaces = [] := by
    rw [TypeRef.object, definition_of_core extends_core (by decide)]
    rfl
  rw [isDirectlyAssignable_iff, lineage_object extends_core]
  simp [none]

theorem isDirectlyAssignable_array {element : TypeRef} :
    system.isDirectlyAssignable (.array element) target = true ↔
      target = .array element ∨ target = .arrayBase ∨ target = .object := by
  have none {type : TypeRef} (member : type ∈ system.lineage (.array element)) :
      (system.definition type).interfaces = [] := by
    rw [lineage_array extends_core] at member
    simp only [List.mem_cons, List.not_mem_nil, or_false] at member
    rcases member with rfl | rfl | rfl
    · rfl
    · rw [TypeRef.arrayBase, definition_of_core extends_core (by decide)]
      rfl
    · rw [TypeRef.object, definition_of_core extends_core (by decide)]
      rfl
  rw [isDirectlyAssignable_iff]
  constructor
  · rintro (rfl | above | ⟨-, lister, member, listed⟩)
    · exact .inr (.inr rfl)
    · simpa [lineage_array extends_core] using above
    · rw [none member] at listed
      cases listed
  · rw [lineage_array extends_core]
    rintro (rfl | rfl | rfl) <;> simp

/-- Steps that do not look inside of array types can be joined if the lists of interfaces are complete. -/
theorem isDirectlyAssignable_trans (flat : system.Flattened)
    (first : system.isDirectlyAssignable source middle = true)
    (second : system.isDirectlyAssignable middle target = true) :
    system.isDirectlyAssignable source target = true := by
  rcases isDirectlyAssignable_iff.mp first with rfl | above | ⟨interface, lister, above, listed⟩
  · exact isDirectlyAssignable_iff.mpr (.inl ((isDirectlyAssignable_object extends_core).mp second))
  · exact isDirectlyAssignable_of_lineage above second
  · exact isDirectlyAssignable_of_lineage above (flat.interfaces lister middle listed interface target second)

/-- Nothing but an array type is assignable to one that converts to others. -/
theorem eq_array_of_direct (flat : system.Flattened) {element outer : TypeRef}
    (direct : system.isDirectlyAssignable source (.array element) = true)
    (references : (system.definition element).isValueType = false)
    (covariant : system.isAssignable element outer = true) :
    source = .array element ∨ element = outer := by
  rcases isDirectlyAssignable_iff.mp direct with impossible | above | ⟨interface, -⟩
  · cases impossible
  · rcases List.mem_cons.mp above with same | higher
    · exact .inl same.symm
    · rcases exists_base?_of_mem_ancestors higher with ⟨below, -, base⟩
      rcases flat.arrays below element base with copied | rfl
      · rw [references] at copied
        cases copied
      · rcases isAssignable_iff.mp covariant with direct | ⟨_, _, impossible, -⟩
        · exact .inr ((isDirectlyAssignable_object extends_core).mp direct).symm
        · cases impossible
  · cases interface

theorem Flattened.isAssignable_trans (flat : system.Flattened) (first : system.isAssignable source middle = true)
    (second : system.isAssignable middle target = true) : system.isAssignable source target = true := by
  induction middle generalizing source target with
  | declared index =>
      rcases isAssignable_iff.mp first with direct | ⟨_, _, -, impossible, -⟩
      · rcases isAssignable_iff.mp second with further | ⟨_, _, impossible, -⟩
        · exact isAssignable_of_direct (isDirectlyAssignable_trans extends_core flat direct further)
        · cases impossible
      · cases impossible
  | array element ih =>
      rcases isAssignable_iff.mp second with further | ⟨_, outer, again, rfl, references, covariant⟩
      · rcases isAssignable_iff.mp first with direct | ⟨inner, _, rfl, -⟩
        · exact isAssignable_of_direct (isDirectlyAssignable_trans extends_core flat direct further)
        · rcases (isDirectlyAssignable_array extends_core).mp further with rfl | root
          · exact first
          · exact isAssignable_of_direct ((isDirectlyAssignable_array extends_core).mpr (.inr root))
      · obtain rfl := TypeRef.array.inj again
        rcases isAssignable_iff.mp first with direct | ⟨inner, _, rfl, same, copied, inside⟩
        · rcases eq_array_of_direct extends_core flat direct references covariant with rfl | rfl
          · exact second
          · exact first
        · obtain rfl := TypeRef.array.inj same
          exact isAssignable_iff.mpr (.inr ⟨inner, outer, rfl, rfl, copied, ih inside covariant⟩)

/-- Whatever keeps a system from being flattened is a failure of transitivity. -/
theorem flattened_of_trans
    (trans : ∀ source middle target, system.isAssignable source middle = true →
      system.isAssignable middle target = true → system.isAssignable source target = true) :
    system.Flattened where
  interfaces type interface listed isInterface target direct := by
    have lists : system.isAssignable type interface = true :=
      isAssignable_of_direct (isDirectlyAssignable_iff.mpr
        (.inr (.inr ⟨isInterface, type, mem_lineage_self type, listed⟩)))
    rcases isAssignable_iff.mp (trans type interface target lists (isAssignable_of_direct direct)) with
      holds | ⟨_, _, rfl, -⟩
    · exact holds
    · cases listed
  arrays type element base := by
    by_contra both
    rw [not_or, Bool.not_eq_true] at both
    have descends : system.isAssignable type (.array element) = true :=
      isAssignable_of_direct (isDirectlyAssignable_iff.mpr
        (.inr (.inl (List.mem_cons_of_mem _ (mem_ancestors_iff.mpr ⟨_, base, mem_lineage_self _⟩)))))
    have covariant : system.isAssignable (.array element) (.array .object) = true :=
      isAssignable_iff.mpr (.inr ⟨element, .object, rfl, rfl, both.1, isAssignable_object element⟩)
    have declared : ∀ inner, type ≠ .array inner := by
      rintro inner rfl
      cases base
    rcases isAssignable_iff.mp (trans _ _ _ descends covariant) with direct | ⟨inner, _, same, -⟩
    · rcases isDirectlyAssignable_iff.mp direct with impossible | above | ⟨impossible, -⟩
      · cases impossible
      · rw [lineage, ancestors_of_base? base, lineage_array extends_core] at above
        simp only [List.mem_cons, List.not_mem_nil, or_false, TypeRef.array.injEq] at above
        rcases above with same | same | impossible | impossible
        · exact declared _ same.symm
        · exact both.2 same.symm
        · cases impossible
        · cases impossible
      · cases impossible
    · exact declared inner same

end

end TypeSystem

end ScriptBridge
