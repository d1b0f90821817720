import ScriptBridge.Proofs.Modes.Agreement
import ScriptBridge.Proofs.Steps.Exec

/-!
# Simulation

An operation in one of two agreeing worlds simulates an operation in the other
when the worlds agree again afterwards and the results are related. The only
way out is that the second context, which registers more callables, can take no
more of them. The lemmas build such pairs of operations from their parts.
-/

namespace ScriptBridge

open Bridge

variable {ε δ α β : Type}

/-- The run failed, and the context that it left can take no more callables. -/
def RanOut (run : Except ε β × World) : Prop :=
  (∃ error, run.1 = .error error) ∧ UInt32.size ≤ run.2.context.callables.size

/-- Equal results. -/
abbrev Equal (_ _ : World) (value other : α) : Prop := other = value

namespace Comparison

variable {c : Comparison} {inProgress : Option TypeRef} {before : World × World}

/-- The worlds after two runs agree and have advanced, and the results are related. -/
structure Reaches (c : Comparison) (inProgress : Option TypeRef) (before : World × World)
    (run : Except ε α × World) (other : Except ε β × World)
    (related : World → World → α → β → Prop) : Prop where
  agree : c.Agree run.2 other.2
  advances : c.Advances inProgress before (run.2, other.2)
  results : Except.Related (related run.2 other.2) run.1 other.1

/-- The two operations do the same from the given worlds, unless the second context is full. -/
def Simulates (c : Comparison) (inProgress : Option TypeRef) (before : World × World) (action : Bridge ε α)
    (other : Bridge ε β) (related : World → World → α → β → Prop) : Prop :=
  RanOut (exec other before.2) ∨
    c.Reaches inProgress before (exec action before.1) (exec other before.2) related

namespace Simulates

variable {action : Bridge ε α} {other : Bridge ε β} {related : World → World → α → β → Prop}

theorem mono {weaker : World → World → α → β → Prop}
    (simulates : c.Simulates inProgress before action other related)
    (implied : ∀ left right value otherValue, c.Agree left right → related left right value otherValue →
      weaker left right value otherValue) :
    c.Simulates inProgress before action other weaker := by
  rcases simulates with full | ⟨agree, advances, results⟩
  · exact Or.inl full
  · exact Or.inr ⟨agree, advances, results.mono fun _ _ => implied _ _ _ _ agree⟩

theorem weaken (simulates : c.Simulates none before action other related) (inProgress : Option TypeRef) :
    c.Simulates inProgress before action other related :=
  simulates.imp_right fun reaches => ⟨reaches.agree, reaches.advances.weaken inProgress, reaches.results⟩

theorem of_unbound {type : TypeRef} (simulates : c.Simulates (some type) before action other related)
    (unbound : before.2.context.binding? type = none) : c.Simulates none before action other related :=
  simulates.imp_right fun reaches => ⟨reaches.agree, reaches.advances.of_unbound unbound, reaches.results⟩

theorem pure (agree : c.Agree before.1 before.2) {value : α} {otherValue : β}
    (holds : related before.1 before.2 value otherValue) :
    c.Simulates inProgress before (Pure.pure value : Bridge ε α) (Pure.pure otherValue) related :=
  Or.inr ⟨agree, .refl _ _, .ok holds⟩

theorem throw (agree : c.Agree before.1 before.2) (error : ε) :
    c.Simulates inProgress before (MonadExcept.throw error : Bridge ε α)
      (MonadExcept.throw error : Bridge ε β)
      related :=
  Or.inr ⟨agree, .refl _ _, .error error⟩

theorem ofExcept (agree : c.Agree before.1 before.2) {holds : α → β → Prop} {result : Except ε α}
    {otherResult : Except ε β} (results : Except.Related holds result otherResult) :
    c.Simulates inProgress before (Bridge.ofExcept result) (Bridge.ofExcept otherResult)
      fun _ _ => holds := by
  right
  rw [exec_ofExcept, exec_ofExcept]
  exact ⟨agree, .refl _ _, results⟩

theorem bind {γ ζ : Type} {next : α → Bridge ε γ} {otherNext : β → Bridge ε ζ}
    {final : World → World → γ → ζ → Prop} (first : c.Simulates inProgress before action other related)
    (second : ∀ value otherValue after, c.Agree after.1 after.2 → c.Advances inProgress before after →
      related after.1 after.2 value otherValue →
      c.Simulates inProgress after (next value) (otherNext otherValue) final) :
    c.Simulates inProgress before (action >>= next) (other >>= otherNext) final := by
  simp only [Simulates] at *
  rw [exec_bind, exec_bind]
  rcases first with ⟨⟨error, failed⟩, full⟩ | ⟨agree, advances, results⟩
  · left
    generalize exec other before.2 = run at *
    rcases run with ⟨result, after⟩
    obtain rfl : result = .error error := failed
    exact ⟨⟨error, rfl⟩, full⟩
  · generalize exec action before.1 = run at *
    generalize exec other before.2 = otherRun at *
    rcases run with ⟨result, after⟩
    rcases otherRun with ⟨otherResult, otherAfter⟩
    dsimp only at *
    cases results with
    | error error => exact Or.inr ⟨agree, advances, .error error⟩
    | ok holds =>
        apply (second _ _ (after, otherAfter) agree advances holds).imp_right
        intro reaches
        exact ⟨reaches.agree, advances.trans reaches.advances, reaches.results⟩

/-- A part that only the first operation has comes first. -/
theorem after_left {γ : Type} {first : Bridge ε γ} {value : γ} {middle : World}
    {next : γ → Bridge ε α} (run : exec first before.1 = (.ok value, middle))
    (advances : c.Advances inProgress before (middle, before.2))
    (rest : c.Simulates inProgress (middle, before.2) (next value) other related) :
    c.Simulates inProgress before (first >>= next) other related := by
  simp only [Simulates]
  rw [exec_bind_of_ok run]
  exact rest.imp_right fun reaches =>
    ⟨reaches.agree, advances.trans reaches.advances, reaches.results⟩

/-- A part that only the second operation has comes first. -/
theorem after_right {γ : Type} {first : Bridge ε γ} {value : γ} {middle : World}
    {next : γ → Bridge ε β} (run : exec first before.2 = (.ok value, middle))
    (advances : c.Advances inProgress before (before.1, middle))
    (rest : c.Simulates inProgress (before.1, middle) action (next value) related) :
    c.Simulates inProgress before action (first >>= next) related := by
  simp only [Simulates]
  rw [exec_bind_of_ok run]
  exact rest.imp_right fun reaches =>
    ⟨reaches.agree, advances.trans reaches.advances, reaches.results⟩

theorem map {γ ζ : Type} {change : α → γ} {otherChange : β → ζ} {final : World → World → γ → ζ → Prop}
    (simulates : c.Simulates inProgress before action other related)
    (holds : ∀ left right value otherValue, related left right value otherValue →
      final left right (change value) (otherChange otherValue)) :
    c.Simulates inProgress before (change <$> action) (otherChange <$> other) final := by
  rw [← bind_pure_comp, ← bind_pure_comp]
  exact simulates.bind fun _ _ _ agree _ related => .pure agree (holds _ _ _ _ related)

theorem discard (simulates : c.Simulates inProgress before action other related) :
    c.Simulates inProgress before (Functor.discard action) (Functor.discard other) Equal :=
  simulates.map fun _ _ _ _ _ => rfl

theorem adapt (simulates : c.Simulates inProgress before action other related) (change : ε → δ) :
    c.Simulates inProgress before (ExceptT.adapt change action) (ExceptT.adapt change other) related := by
  simp only [Simulates] at *
  rw [exec_adapt, exec_adapt]
  rcases simulates with ⟨⟨error, failed⟩, full⟩ | ⟨agree, advances, results⟩
  · exact Or.inl ⟨⟨change error, by rw [failed]; rfl⟩, full⟩
  · exact Or.inr ⟨agree, advances, results.mapError change⟩

theorem context {next otherNext : Context → Bridge ε α} {related : World → World → α → α → Prop}
    (simulates : c.Simulates inProgress before (next before.1.context) (otherNext before.2.context) related) :
    c.Simulates inProgress before (Bridge.context >>= next) (Bridge.context >>= otherNext) related :=
  simulates

/-- Both worlds have the same store. -/
theorem store (agree : c.Agree before.1 before.2) {next : HostStore → Bridge ε α}
    {otherNext : HostStore → Bridge ε β}
    (simulates : c.Simulates inProgress before (next before.1.store) (otherNext before.1.store) related) :
    c.Simulates inProgress before (Bridge.store >>= next) (Bridge.store >>= otherNext) related := by
  simp only [Simulates] at *
  rw [exec_bind, exec_bind, exec_store, exec_store, agree.store]
  exact simulates

theorem forM {γ ζ : Type} {next : γ → Bridge ε PUnit} {otherNext : ζ → Bridge ε PUnit} {paired : γ → ζ → Prop}
    {items : List γ} {others : List ζ} (pairs : List.Forall₂ paired items others)
    (agree : c.Agree before.1 before.2)
    (each : ∀ item otherItem after, paired item otherItem → c.Agree after.1 after.2 →
      c.Simulates inProgress after (next item) (otherNext otherItem) Equal) :
    c.Simulates inProgress before (items.forM next) (others.forM otherNext) Equal := by
  induction pairs generalizing before with
  | nil => exact .pure agree rfl
  | cons first _ ih =>
      exact (each _ _ before first agree).bind fun _ _ after agree _ _ => ih agree

/-- Results that are related stay so while the rest is done. -/
theorem mapM {γ ζ : Type} {next : γ → Bridge ε α} {otherNext : ζ → Bridge ε β} {paired : γ → ζ → Prop}
    {items : List γ} {others : List ζ} (pairs : List.Forall₂ paired items others)
    (agree : c.Agree before.1 before.2)
    (each : ∀ item otherItem after, paired item otherItem → c.Agree after.1 after.2 →
      c.Simulates inProgress after (next item) (otherNext otherItem) related)
    (stable : ∀ earlier later value otherValue, c.Advances inProgress earlier later →
      related earlier.1 earlier.2 value otherValue → related later.1 later.2 value otherValue) :
    c.Simulates inProgress before (items.mapM next) (others.mapM otherNext)
      fun left right => List.Forall₂ (related left right) := by
  induction pairs generalizing before with
  | nil => exact .pure agree .nil
  | cons first _ ih =>
      rw [List.mapM_cons, List.mapM_cons]
      apply (each _ _ before first agree).bind
      intro value otherValue after agree _ holds
      apply (ih agree).bind
      intro values otherValues last agree advances rest
      exact .pure agree (.cons (stable _ _ _ _ advances holds) rest)

end Simulates

end Comparison

end ScriptBridge
