import ScriptBridge.Host.TypeSystem

/-!
# Base chains

Every type stands higher than its base, so that climbing reaches the root in at most as
many steps as the type is high. The ancestors of a type are therefore its base and the
ancestors of that.
-/

namespace ScriptBridge.TypeSystem

variable {system : TypeSystem} {type other base : TypeRef}

theorem rank_lt_of_foundation (listed : other ∈ (system.definition type).foundations) :
    other.rank < type.rank := by
  cases type with
  | declared index =>
      rw [definition] at listed
      cases known : system.types[index]? with
      | none =>
          rw [known] at listed
          exact absurd listed List.not_mem_nil
      | some declared =>
          rcases List.getElem?_eq_some_iff.mp known with ⟨bound, same⟩
          rw [known] at listed
          exact system.founded index bound other (same ▸ listed)
  | array element =>
      rw [definition] at listed
      rcases List.mem_singleton.mp listed with rfl
      exact (by decide : 2 * 4 < 2 * TypeRef.coreCount - 1)

theorem rank_lt_of_base? (known : system.base? type = some base) : base.rank < type.rank := by
  rw [base?] at known
  exact rank_lt_of_foundation (List.mem_append_left _ (Option.mem_toList.mpr known))

/-- More steps than the type is high lead no further. -/
theorem climb_eq_ancestors {steps : Nat} (enough : type.rank ≤ steps) :
    system.climb steps type = system.ancestors type := by
  have same : ∀ first second, type.rank ≤ first → type.rank ≤ second →
      system.climb first type = system.climb second type := by
    intro first
    induction first generalizing type with
    | zero =>
        intro second low _
        cases second with
        | zero => rfl
        | succ second =>
            rw [climb, climb]
            cases known : system.base? type with
            | none => rfl
            | some base => exact absurd (rank_lt_of_base? known) (by omega)
    | succ first ih =>
        intro second enough high
        cases known : system.base? type with
        | none => cases second <;> simp [climb, known]
        | some base =>
            have lower := rank_lt_of_base? known
            cases second with
            | zero => omega
            | succ second =>
                simp only [climb, known]
                rw [ih (by omega) second (by omega) (by omega)]
  exact same steps type.rank enough (Nat.le_refl _)

theorem ancestors_of_base? (known : system.base? type = some base) :
    system.ancestors type = system.lineage base := by
  have lower := rank_lt_of_base? known
  rw [ancestors]
  cases height : type.rank with
  | zero => omega
  | succ steps =>
      rw [climb, known]
      exact congrArg (base :: ·) (climb_eq_ancestors (by omega))

theorem ancestors_of_no_base (known : system.base? type = none) : system.ancestors type = [] := by
  rw [ancestors]
  cases type.rank with
  | zero => rfl
  | succ steps => rw [climb, known]

theorem mem_lineage_self (type : TypeRef) : type ∈ system.lineage type := List.mem_cons_self

/-- An ancestor is the base, or an ancestor of the base. -/
theorem mem_ancestors_iff : other ∈ system.ancestors type ↔
    ∃ base, system.base? type = some base ∧ other ∈ system.lineage base := by
  cases known : system.base? type with
  | none => simp [ancestors_of_no_base known]
  | some base => simp [ancestors_of_base? known]

/-- What holds of a type if it holds of its base holds of every type. -/
theorem base_induction (system : TypeSystem) {motive : TypeRef → Prop}
    (step : ∀ type, (∀ base, system.base? type = some base → motive base) → motive type) (type : TypeRef) :
    motive type := by
  induction height : type.rank using Nat.strongRecOn generalizing type with
  | _ height ih => exact step type fun base known => ih base.rank (height ▸ rank_lt_of_base? known) base rfl

theorem mem_lineage_trans {top : TypeRef} (first : other ∈ system.lineage type)
    (second : top ∈ system.lineage other) : top ∈ system.lineage type := by
  induction type using base_induction system with
  | step type ih =>
      rcases List.mem_cons.mp first with rfl | above
      · exact second
      · rcases mem_ancestors_iff.mp above with ⟨base, known, higher⟩
        exact List.mem_cons_of_mem _ (mem_ancestors_iff.mpr ⟨base, known, ih base known higher⟩)

theorem eq_or_rank_lt_of_mem_lineage (member : other ∈ system.lineage type) :
    other = type ∨ other.rank < type.rank := by
  induction type using base_induction system with
  | step type ih =>
      rcases List.mem_cons.mp member with rfl | above
      · exact .inl rfl
      · rcases mem_ancestors_iff.mp above with ⟨base, known, higher⟩
        have lower := rank_lt_of_base? known
        rcases ih base known higher with rfl | below
        · exact .inr lower
        · exact .inr (Nat.lt_trans below lower)

/-- An ancestor of a type is the base of something in its lineage. -/
theorem exists_base?_of_mem_ancestors (above : other ∈ system.ancestors type) :
    ∃ below ∈ system.lineage type, system.base? below = some other := by
  induction type using base_induction system with
  | step type ih =>
      rcases mem_ancestors_iff.mp above with ⟨base, known, higher⟩
      rcases List.mem_cons.mp higher with rfl | above
      · exact ⟨type, mem_lineage_self type, known⟩
      · rcases ih base known above with ⟨below, member, found⟩
        have inherited : base ∈ system.lineage type :=
          List.mem_cons_of_mem _ (mem_ancestors_iff.mpr ⟨base, known, mem_lineage_self base⟩)
        exact ⟨below, mem_lineage_trans inherited member, found⟩

end ScriptBridge.TypeSystem
