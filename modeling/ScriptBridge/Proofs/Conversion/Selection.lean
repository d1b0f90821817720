import ScriptBridge.Context.Realm
import ScriptBridge.Proofs.Steps.Exec

/-!
# Which candidate is chosen

Ranks are ordered by their worst tier and then by the number of their tiers that are not
exact. A call goes to the candidate that is better than every matching candidate before
it, while no matching candidate after it is better. What the choice depends on is
therefore the order of the matching candidates, and of these only their ranks.
-/

namespace ScriptBridge

namespace Rank

theorem better_iff (left right : Rank) :
    left.better right = true ↔
      left.worst.cost < right.worst.cost ∨ left.worst.cost = right.worst.cost ∧ left.inexact < right.inexact := by
  simp [better]

theorem not_better_self (rank : Rank) : ¬ rank.better rank = true := by
  rw [better_iff]
  omega

theorem better_asymm {left right : Rank} (better : left.better right = true) : ¬ right.better left = true := by
  rw [better_iff] at better ⊢
  omega

theorem better_trans {left middle right : Rank} (first : left.better middle = true)
    (second : middle.better right = true) : left.better right = true := by
  rw [better_iff] at first second ⊢
  omega

theorem not_better_trans {left middle right : Rank} (first : ¬ left.better middle = true)
    (second : ¬ middle.better right = true) : ¬ left.better right = true := by
  rw [better_iff] at first second ⊢
  omega

end Rank

namespace Context

variable {system : TypeSystem} {context : Context}

theorem firstBest_eq_none_iff (ranked : List (Rank × Candidate)) : firstBest ranked = none ↔ ranked = [] := by
  cases ranked with
  | nil => simp [firstBest]
  | cons first rest =>
      simp only [firstBest, reduceCtorEq, iff_false]
      split
      · simp
      · split <;> simp

theorem mem_of_firstBest {ranked : List (Rank × Candidate)} {best : Rank × Candidate}
    (chosen : firstBest ranked = some best) : best ∈ ranked := by
  induction ranked generalizing best with
  | nil => cases chosen
  | cons first rest ih =>
      simp only [firstBest] at chosen
      split at chosen
      next => exact Option.some.inj chosen ▸ List.mem_cons_self
      next later present =>
        split at chosen
        next => exact Option.some.inj chosen ▸ List.mem_cons_of_mem _ (ih present)
        next => exact Option.some.inj chosen ▸ List.mem_cons_self

theorem firstBest_of_split {best : Rank × Candidate} (front back : List (Rank × Candidate))
    (worse : ∀ other ∈ front, best.1.better other.1 = true)
    (unbeaten : ∀ other ∈ back, ¬ other.1.better best.1 = true) :
    firstBest (front ++ best :: back) = some best := by
  induction front with
  | nil =>
      rw [List.nil_append, firstBest]
      split
      next => rfl
      next found present => rw [if_neg (unbeaten found (mem_of_firstBest present))]
  | cons first front ih =>
      rw [List.cons_append, firstBest, ih fun other listed => worse other (List.mem_cons_of_mem _ listed)]
      exact if_pos (worse first List.mem_cons_self)

/-- The first best of some ranked candidates beats those before it, and no later one beats it. -/
theorem firstBest_eq_some_iff {ranked : List (Rank × Candidate)} {best : Rank × Candidate} :
    firstBest ranked = some best ↔
      ∃ front back, ranked = front ++ best :: back ∧ (∀ other ∈ front, best.1.better other.1 = true) ∧
        ∀ other ∈ back, ¬ other.1.better best.1 = true := by
  refine ⟨fun chosen => ?_, fun ⟨front, back, split, worse, unbeaten⟩ =>
    split ▸ firstBest_of_split front back worse unbeaten⟩
  induction ranked generalizing best with
  | nil => cases chosen
  | cons first rest ih =>
      simp only [firstBest] at chosen
      split at chosen
      next none =>
        obtain rfl := Option.some.inj chosen
        exact ⟨[], [], by rw [(firstBest_eq_none_iff rest).mp none]; rfl, by simp, by simp⟩
      next later present =>
        rcases ih present with ⟨front, back, rfl, worse, unbeaten⟩
        split at chosen
        next beaten =>
          obtain rfl := Option.some.inj chosen
          exact ⟨first :: front, back, rfl, List.forall_mem_cons.mpr ⟨beaten, worse⟩, unbeaten⟩
        next kept =>
          obtain rfl := Option.some.inj chosen
          refine ⟨[], front ++ later :: back, rfl, by simp, fun other listed => ?_⟩
          rcases List.mem_append.mp listed with before | after
          · exact fun better => kept (Rank.better_trans (worse other before) better)
          · rcases List.mem_cons.mp after with rfl | after
            · exact kept
            · exact Rank.not_better_trans (unbeaten other after) kept

variable {group : OverloadGroup} {arguments : List ScriptValue}

/-- A candidate that a rank beats, or that does not match at all. -/
def BeatenBy (system : TypeSystem) (context : Context) (group : OverloadGroup) (arguments : List ScriptValue)
    (rank : Rank) (other : Candidate) : Prop :=
  ∀ found, context.rank? system group arguments other = some found → rank.better found = true

/-- A candidate that does not beat a rank, or that does not match at all. -/
def NotBeating (system : TypeSystem) (context : Context) (group : OverloadGroup) (arguments : List ScriptValue)
    (rank : Rank) (other : Candidate) : Prop :=
  ∀ found, context.rank? system group arguments other = some found → ¬ found.better rank = true

theorem choose?_eq_none_iff :
    context.choose? system group arguments = none ↔
      ∀ candidate ∈ group.candidates, context.rank? system group arguments candidate = none := by
  rw [choose?, Option.map_eq_none_iff, firstBest_eq_none_iff, List.filterMap_eq_nil_iff]
  simp only [Option.map_eq_none_iff]

/-- The chosen candidate beats all that match before it, and none that matches after it beats it. -/
theorem choose?_eq_some_iff {chosen : Candidate} :
    context.choose? system group arguments = some chosen ↔
      ∃ front back rank, group.candidates = front ++ chosen :: back ∧
        context.rank? system group arguments chosen = some rank ∧
        (∀ other ∈ front, BeatenBy system context group arguments rank other) ∧
        ∀ other ∈ back, NotBeating system context group arguments rank other := by
  have listed {others : List Candidate} {holds : Rank → Prop} :
      (∀ ranked ∈ others.filterMap fun candidate =>
          (context.rank? system group arguments candidate).map fun rank => (rank, candidate), holds ranked.1) ↔
        ∀ other ∈ others, ∀ found, context.rank? system group arguments other = some found → holds found := by
    simp only [List.mem_filterMap, Option.map_eq_some_iff]
    exact ⟨fun all other member found ranked => all (found, other) ⟨other, member, found, ranked, rfl⟩,
      fun all _ ⟨other, member, found, ranked, same⟩ => same ▸ all other member found ranked⟩
  simp only [choose?, Option.map_eq_some_iff, firstBest_eq_some_iff]
  constructor
  · rintro ⟨⟨rank, candidate⟩, ⟨front, back, split, worse, unbeaten⟩, rfl⟩
    rcases List.filterMap_eq_append_iff.mp split with ⟨before, rest, together, rfl, ranked⟩
    rcases List.filterMap_eq_cons_iff.mp ranked with ⟨unmatched, found, after, rfl, none, present, rfl⟩
    rcases Option.map_eq_some_iff.mp present with ⟨_, matched, same⟩
    obtain ⟨rfl, rfl⟩ := Prod.mk.inj same
    refine ⟨before ++ unmatched, after, _, by rw [together, List.append_assoc], matched, ?_, listed.mp unbeaten⟩
    refine List.forall_mem_append.mpr ⟨listed.mp worse, fun other member found ranked => ?_⟩
    rw [Option.map_eq_none_iff.mp (none other member)] at ranked
    cases ranked
  · rintro ⟨front, back, rank, split, matched, worse, unbeaten⟩
    refine ⟨(rank, chosen), ⟨_, _, ?_, listed.mpr worse, listed.mpr unbeaten⟩, rfl⟩
    rw [split, List.filterMap_append, List.filterMap_cons_some (by rw [matched]; rfl)]

theorem mem_of_choose? {candidate : Candidate} (chosen : context.choose? system group arguments = some candidate) :
    candidate ∈ group.candidates := by
  rcases choose?_eq_some_iff.mp chosen with ⟨front, back, -, split, -⟩
  rw [split]
  exact List.mem_append_right _ List.mem_cons_self

/-- Only the candidates that match have a part in the choice. -/
theorem choose?_congr_matching {candidates : List Candidate}
    (same : candidates.filter (fun candidate => (context.rank? system group arguments candidate).isSome) =
      group.candidates.filter fun candidate => (context.rank? system group arguments candidate).isSome) :
    context.choose? system { group with candidates := candidates } arguments =
      context.choose? system group arguments := by
  have matching (others : List Candidate) :
      (others.filterMap fun candidate =>
          (context.rank? system group arguments candidate).map fun rank => (rank, candidate)) =
        (others.filter fun candidate => (context.rank? system group arguments candidate).isSome).filterMap
          fun candidate => (context.rank? system group arguments candidate).map fun rank => (rank, candidate) := by
    rw [List.filterMap_filter]
    congr 1
    funext candidate
    cases context.rank? system group arguments candidate <;> rfl
  have ranks : context.rank? system { group with candidates := candidates } arguments =
      context.rank? system group arguments := rfl
  rw [choose?, choose?, ranks, matching, same, ← matching]

end Context

namespace Host

open Bridge

variable (host : Host)

theorem exec_resolveOverload (group : OverloadGroup) (arguments : List ScriptValue) (world : World) :
    (exec (host.resolveOverload group arguments) world).1 =
      match world.context.choose? host.system group arguments with
      | some chosen => .ok chosen
      | none => .error (.noMatchingOverload (host.fullName group.owner) group.name) := by
  rw [resolveOverload, exec_bind_of_ok (exec_context world),
    exec_bind_of_ok (show exec (Bridge.count _) world = (.ok (), _) from rfl)]
  cases world.context.choose? host.system group arguments <;> rfl

theorem exec_resolveOverload_eq_ok {group : OverloadGroup} {arguments : List ScriptValue} {world : World}
    {chosen : Candidate} :
    (exec (host.resolveOverload group arguments) world).1 = .ok chosen ↔
      world.context.choose? host.system group arguments = some chosen := by
  rw [exec_resolveOverload]
  cases world.context.choose? host.system group arguments <;> simp

theorem mem_of_resolveOverload {host : Host} {group : OverloadGroup} {arguments : List ScriptValue} {world after : World}
    {candidate : Candidate} (run : exec (host.resolveOverload group arguments) world = (.ok candidate, after)) :
    candidate ∈ group.candidates :=
  Context.mem_of_choose? ((host.exec_resolveOverload_eq_ok).mp (congrArg Prod.fst run))

/--
The choice is stable. It fails if and only if no candidate matches, and it is the same for any candidates of which
the same ones match in the same order. A chosen candidate has a strictly better rank than every matching candidate
declared before it. It stays chosen when any others are taken away, and when a candidate that does not match or
whose rank is not strictly better is declared anywhere after it.
-/
theorem resolveOverload_stable (group : OverloadGroup) (arguments : List ScriptValue) (world : World) :
    let rank? := world.context.rank? host.system group arguments
    let choice := fun candidates =>
      (exec (host.resolveOverload { group with candidates := candidates } arguments) world).1
    (choice group.candidates = .error (.noMatchingOverload (host.fullName group.owner) group.name) ↔
      ∀ candidate ∈ group.candidates, rank? candidate = none) ∧
    (∀ error, choice group.candidates = .error error →
      error = .noMatchingOverload (host.fullName group.owner) group.name) ∧
    (∀ candidates, (candidates.filter fun candidate => (rank? candidate).isSome) =
        (group.candidates.filter fun candidate => (rank? candidate).isSome) →
      choice candidates = choice group.candidates) ∧
    ∀ chosen, choice group.candidates = .ok chosen →
      ∃ front back rank, group.candidates = front ++ chosen :: back ∧ rank? chosen = some rank ∧
        (∀ earlier ∈ front, ∀ found, rank? earlier = some found → rank.better found = true) ∧
        (∀ before after, before.Sublist front → after.Sublist back →
          choice (before ++ chosen :: after) = .ok chosen) ∧
        ∀ kept rest added, back = kept ++ rest →
          (∀ found, rank? added = some found → found.better rank = false) →
          choice (front ++ chosen :: (kept ++ added :: rest)) = .ok chosen := by
  intro rank? choice
  refine ⟨?_, fun error failed => ?_, fun candidates same => ?_, fun chosen chose => ?_⟩
  · rw [← Context.choose?_eq_none_iff]
    simp only [choice, exec_resolveOverload]
    cases world.context.choose? host.system group arguments <;> simp
  · simp only [choice, exec_resolveOverload] at failed
    split at failed
    next => cases failed
    next => exact (Except.error.inj failed).symm
  · simp only [choice, exec_resolveOverload, Context.choose?_congr_matching same]
  · rcases Context.choose?_eq_some_iff.mp ((host.exec_resolveOverload_eq_ok).mp chose) with
      ⟨front, back, rank, split, matched, beaten, unbeaten⟩
    have remains (before after : List Candidate)
        (worse : ∀ other ∈ before, Context.BeatenBy host.system world.context group arguments rank other)
        (unable : ∀ other ∈ after, Context.NotBeating host.system world.context group arguments rank other) :
        choice (before ++ chosen :: after) = .ok chosen :=
      (host.exec_resolveOverload_eq_ok).mpr
        (Context.choose?_eq_some_iff.mpr ⟨before, after, rank, rfl, matched, worse, unable⟩)
    refine ⟨front, back, rank, split, matched, beaten, fun before after fewer shorter => ?_,
      fun kept rest added parts unable => ?_⟩
    · exact remains before after (fun other member => beaten other (fewer.subset member))
        fun other member => unbeaten other (shorter.subset member)
    · refine remains front _ beaten ?_
      rw [parts, List.forall_mem_append] at unbeaten
      exact List.forall_mem_append.mpr ⟨unbeaten.1, List.forall_mem_cons.mpr
        ⟨fun found ranked => by simp [unable found ranked], unbeaten.2⟩⟩

/-- A candidate for static calls by the name of `Show`. -/
def showing (parameters : List Parameter) : Candidate :=
  ⟨⟨.object, .method 0, { MethodDef.named "Show" (.native 0) with isStatic := true, parameters := parameters }⟩,
    .none, false⟩

/-- Collects any values. -/
def showAll : Candidate := showing [⟨"values", .host (.array .object), .byValue, true⟩]

/-- Takes one text. -/
def showText : Candidate := showing [⟨"text", .host .string, .byValue, false⟩]

/-- A text is shown as such, and also if nothing else can show it. -/
theorem resolveOverload_stable_text :
    let choice := fun candidates => (exec (Realm.core.host.resolveOverload ⟨.object, "Show", .onType, candidates⟩
      [.string "a"]) ⟨.empty, Context.fresh .standard ⟨1⟩, []⟩).1
    choice [showAll, showText] = .ok showText ∧ choice [showText] = .ok showText := by
  intro choice
  have chosen : choice [showAll, showText] = .ok showText := by
    rw [exec_resolveOverload_eq_ok]
    decide +kernel
  rcases (resolveOverload_stable Realm.core.host ⟨.object, "Show", .onType, [showAll, showText]⟩ [.string "a"]
    ⟨.empty, Context.fresh .standard ⟨1⟩, []⟩).2.2.2 showText chosen with ⟨front, back, _, -, -, -, remains, -⟩
  exact ⟨chosen, remains [] [] front.nil_sublist back.nil_sublist⟩

end Host

end ScriptBridge
