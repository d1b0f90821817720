import ScriptBridge.Proofs.Conversion.Selection

/-!
# Candidates that fit at least as well everywhere

The tiers of two candidates can be compared argument by argument. The rank of a candidate
keeps less than that, only the worst tier and the number of tiers that are not exact, but
it never contradicts the comparison: where one candidate fits every argument at least as
well as another, it is not ranked behind it. Whether it is ranked before it depends on
where it fits better. An exact fit always counts; a fit that is not exact counts only if
no argument of the better candidate is collected, since then the worst tiers differ.
-/

namespace ScriptBridge

namespace Tier

theorem cost_injective : Function.Injective cost := by
  intro left right same
  cases left <;> cases right <;> first | rfl | cases same

theorem cost_worse (left right : Tier) : (left.worse right).cost = max left.cost right.cost := by
  rw [worse]
  split <;> omega

theorem cost_worst_le_iff {tiers : List Tier} {bound : Nat} :
    (worst tiers).cost ≤ bound ↔ ∀ tier ∈ tiers, tier.cost ≤ bound := by
  have folded (start : Tier) : (tiers.foldl worse start).cost ≤ bound ↔
      start.cost ≤ bound ∧ ∀ tier ∈ tiers, tier.cost ≤ bound := by
    induction tiers generalizing start with
    | nil => simp
    | cons first rest ih =>
        rw [List.foldl_cons, ih, cost_worse, List.forall_mem_cons, Nat.max_le, and_assoc]
  rw [worst, folded]
  exact and_iff_right (Nat.zero_le _)

/-- The tier at a position of a list that goes on with exact ones. -/
def nth (tiers : List Tier) (position : Nat) : Tier := tiers.getD position .exact

theorem nth_tail (tiers : List Tier) (position : Nat) : nth tiers.tail position = nth tiers (position + 1) := by
  cases tiers <;> rfl

theorem nth_replicate_append (count : Nat) (tiers : List Tier) (position : Nat) :
    nth (List.replicate count .exact ++ tiers) position =
      if position < count then .exact else nth tiers (position - count) := by
  rw [nth, List.getD_eq_getElem?_getD, List.getElem?_append, List.length_replicate]
  split
  next early => rw [List.getElem?_replicate_of_lt early, Option.getD_some]
  next late => rw [nth, List.getD_eq_getElem?_getD]

theorem exists_nth_of_mem {tiers : List Tier} {tier : Tier} (member : tier ∈ tiers) :
    ∃ position, nth tiers position = tier := by
  rcases List.getElem?_of_mem member with ⟨position, found⟩
  exact ⟨position, by rw [nth, List.getD_eq_getElem?_getD, found, Option.getD_some]⟩

theorem cost_nth_le_worst (tiers : List Tier) (position : Nat) :
    (nth tiers position).cost ≤ (worst tiers).cost := by
  rw [nth, List.getD_eq_getElem?_getD]
  cases found : tiers[position]? with
  | none => exact Nat.zero_le _
  | some tier => exact cost_worst_le_iff.mp (Nat.le_refl _) tier (List.mem_of_getElem? found)

theorem inexact_eq_tail (tiers : List Tier) :
    (Rank.ofTiers tiers).inexact = (if nth tiers 0 = .exact then 0 else 1) + (Rank.ofTiers tiers.tail).inexact := by
  cases tiers with
  | nil => rfl
  | cons first rest =>
      by_cases exact : first = .exact <;> simp [Rank.ofTiers, nth, exact, Nat.add_comm]

variable {left right : List Tier}

theorem cost_worst_le (dominates : ∀ position, (nth left position).cost ≤ (nth right position).cost) :
    (worst left).cost ≤ (worst right).cost := by
  refine cost_worst_le_iff.mpr fun tier member => ?_
  rcases exists_nth_of_mem member with ⟨position, here⟩
  exact here ▸ Nat.le_trans (dominates position) (cost_nth_le_worst right position)

theorem exact_of_dominates (dominates : ∀ position, (nth left position).cost ≤ (nth right position).cost)
    (position : Nat) (exact : nth right position = .exact) : nth left position = .exact := by
  have least := dominates position
  rw [exact] at least
  exact cost_injective (Nat.le_zero.mp least)

theorem exact_tail (exact : ∀ position, nth right position = .exact → nth left position = .exact)
    (position : Nat) (same : nth right.tail position = .exact) : nth left.tail position = .exact := by
  rw [nth_tail] at same ⊢
  exact exact (position + 1) same

theorem inexact_le (exact : ∀ position, nth right position = .exact → nth left position = .exact) :
    (Rank.ofTiers left).inexact ≤ (Rank.ofTiers right).inexact := by
  induction left generalizing right with
  | nil => exact Nat.zero_le _
  | cons first rest ih =>
      have later : (Rank.ofTiers rest).inexact ≤ (Rank.ofTiers right.tail).inexact := ih (exact_tail exact)
      have now := exact 0
      rw [inexact_eq_tail (first :: rest), inexact_eq_tail right, List.tail_cons]
      split <;> split <;> first | omega | exact absurd (now ‹_›) ‹_›

theorem inexact_lt (exact : ∀ position, nth right position = .exact → nth left position = .exact)
    {position : Nat} (gained : nth left position = .exact) (lost : nth right position ≠ .exact) :
    (Rank.ofTiers left).inexact < (Rank.ofTiers right).inexact := by
  rw [inexact_eq_tail left, inexact_eq_tail right]
  induction position generalizing left right with
  | zero =>
      have later := inexact_le (exact_tail exact)
      rw [if_pos gained, if_neg lost]
      omega
  | succ position ih =>
      rw [← nth_tail] at gained lost
      have later := ih (exact_tail exact) gained lost
      rw [← inexact_eq_tail, ← inexact_eq_tail] at later
      have now := exact 0
      split <;> split <;> first | omega | exact absurd (now ‹_›) ‹_›

end Tier

namespace Rank

open Tier

variable {left right : List Tier}

theorem ofTiers_replicate_append (count : Nat) (tiers : List Tier) :
    ofTiers (List.replicate count .exact ++ tiers) = ofTiers tiers := by
  have start : (List.replicate count Tier.exact).foldl worse .exact = .exact := by
    induction count with
    | zero => rfl
    | succ count ih => exact ih
  simp [ofTiers, Tier.worst, start]

/-- What fits everywhere at least as well is not ranked behind. -/
theorem not_better_of_dominates (dominates : ∀ position, (nth left position).cost ≤ (nth right position).cost) :
    (ofTiers right).better (ofTiers left) = false := by
  have no_worse : (ofTiers left).worst.cost ≤ (ofTiers right).worst.cost := cost_worst_le dominates
  have no_more := inexact_le (exact_of_dominates dominates)
  rw [← Bool.not_eq_true, better_iff]
  omega

/-- What fits everywhere at least as well, and somewhere exactly where the other does not, is ranked before it. -/
theorem better_of_exact (dominates : ∀ position, (nth left position).cost ≤ (nth right position).cost)
    {position : Nat} (gained : nth left position = .exact) (lost : nth right position ≠ .exact) :
    (ofTiers left).better (ofTiers right) = true := by
  have no_worse : (ofTiers left).worst.cost ≤ (ofTiers right).worst.cost := cost_worst_le dominates
  have fewer := inexact_lt (exact_of_dominates dominates) gained lost
  rw [better_iff]
  omega

/-- What fits everywhere at least as well, somewhere better, and nowhere as a variadic fit, is ranked before it. -/
theorem better_of_uncollected (dominates : ∀ position, (nth left position).cost ≤ (nth right position).cost)
    {position : Nat} (gained : (nth left position).cost < (nth right position).cost)
    (uncollected : ∀ position, nth left position ≠ .variadic) :
    (ofTiers left).better (ofTiers right) = true := by
  cases here : nth left position with
  | exact => exact better_of_exact dominates here fun lost => by simp [here, lost] at gained
  | variadic => exact absurd here (uncollected position)
  | assignable =>
      have collected : 2 ≤ (nth right position).cost := by
        rw [here] at gained
        exact gained
      have worst_right : 2 ≤ (ofTiers right).worst.cost :=
        Nat.le_trans collected (cost_nth_le_worst right position)
      have worst_left : (ofTiers left).worst.cost ≤ 1 := by
        refine cost_worst_le_iff.mpr fun tier member => ?_
        rcases exists_nth_of_mem member with ⟨place, there⟩
        cases tier with
        | exact => exact Nat.zero_le _
        | assignable => exact Nat.le_refl _
        | variadic => exact absurd there (uncollected place)
      rw [better_iff]
      omega

/-- What fits everywhere at least as well, but never exactly where the other does not, and somewhere as a variadic
fit, has the same rank. -/
theorem eq_of_collected (dominates : ∀ position, (nth left position).cost ≤ (nth right position).cost)
    (exact : ∀ position, nth left position = .exact → nth right position = .exact)
    {position : Nat} (collected : nth left position = .variadic) : ofTiers left = ofTiers right := by
  have worst_variadic {tiers : List Tier} (reached : 2 ≤ (nth tiers position).cost) :
      (ofTiers tiers).worst = .variadic := by
    have least : 2 ≤ (ofTiers tiers).worst.cost := Nat.le_trans reached (cost_nth_le_worst tiers position)
    revert least
    cases (ofTiers tiers).worst <;> simp [cost]
  have same_worst : (ofTiers left).worst = (ofTiers right).worst := by
    have here : 2 ≤ (nth left position).cost := by simp [collected, cost]
    rw [worst_variadic here, worst_variadic (Nat.le_trans here (dominates position))]
  have same_count : (ofTiers left).inexact = (ofTiers right).inexact :=
    Nat.le_antisymm (inexact_le (exact_of_dominates dominates)) (inexact_le exact)
  exact congrArg₂ Rank.mk same_worst same_count

end Rank

namespace Context

variable (system : TypeSystem) (context : Context)

/--
The tier of one of the inputs that a variadic parameter collects. Without any input, the
empty array is a variadic fit of its own.
-/
def collectedTier (type : TypeRef) : List ScriptValue → Nat → Tier
  | [single], 0 => (context.compatibility system single type).getD .variadic
  | inputs, position => if position < max inputs.length 1 then .variadic else .exact

/-- The tier of the input at a position for the parameter that takes it, exact if none does. -/
def inputTier (specialization : Specialization) : List Parameter → List ScriptValue → Nat → Tier
  | [], _, _ => .exact
  | parameter :: parameters, inputs, position =>
      match specialization.resolve parameter.type with
      | .error _ => .exact
      | .ok type =>
          if parameter.isVariadic then context.collectedTier system type inputs position
          else
            match inputs, position with
            | [], _ => .exact
            | input :: _, 0 => (context.compatibility system input type).getD .exact
            | _ :: rest, position + 1 => inputTier specialization parameters rest position

/--
The tier of the argument at a position of a call for a candidate. A receiver that the
candidate does not take as a parameter is an exact fit; the position after the last
argument is that of an empty variadic array.
-/
def argumentTier (group : OverloadGroup) (arguments : List ScriptValue) (candidate : Candidate)
    (position : Nat) : Tier :=
  if position < group.receiverCount candidate then .exact
  else
    context.inputTier system candidate.specialization candidate.method.definition.inputs
      (inputsFor group candidate arguments) (position - group.receiverCount candidate)

variable {system context}

theorem collectedTier_eq {type : TypeRef} {inputs : List ScriptValue} {tiers : List Tier}
    (collected : context.variadicTiers? system type inputs = some tiers) (position : Nat) :
    context.collectedTier system type inputs position = tiers.getD position .exact := by
  simp only [variadicTiers?] at collected
  rcases inputs with _ | ⟨first, _ | ⟨second, rest⟩⟩
  · cases element : type.element? <;> simp [element] at collected
    subst collected
    cases position <;> simp [collectedTier]
  · cases whole : context.compatibility system first type with
    | some tier =>
        simp only [whole, Option.some.injEq] at collected
        subst collected
        cases position <;> simp [collectedTier, whole]
    | none =>
        cases element : type.element? <;> simp [whole, element] at collected
        obtain ⟨-, rfl⟩ := collected
        cases position <;> simp [collectedTier, whole]
  · cases element : type.element? <;> simp [element] at collected
    obtain ⟨-, rfl⟩ := collected
    rcases position with _ | _ | position
    · simp [collectedTier]
    · simp [collectedTier]
    · by_cases inside : position < rest.length <;> simp [collectedTier, inside]

theorem inputTier_eq {specialization : Specialization} {parameters : List Parameter}
    {inputs : List ScriptValue} {tiers : List Tier}
    (ranked : context.tiers? system specialization parameters inputs = some tiers) (position : Nat) :
    context.inputTier system specialization parameters inputs position = tiers.getD position .exact := by
  induction parameters generalizing inputs tiers position with
  | nil =>
      obtain rfl := Option.some.inj ranked
      rfl
  | cons parameter parameters ih =>
      rw [tiers?] at ranked
      rw [inputTier]
      generalize specialization.resolve parameter.type = resolved at ranked ⊢
      cases resolved with
      | error error => cases ranked
      | ok type =>
          dsimp only at ranked ⊢
          split at ranked
          next collects => rw [if_pos collects, collectedTier_eq ranked]
          next single =>
            rw [if_neg single]
            cases inputs with
            | nil => cases ranked
            | cons input rest =>
                rcases Option.bind_eq_some_iff.mp ranked with ⟨tier, fits, ranked⟩
                rcases Option.bind_eq_some_iff.mp ranked with ⟨others, later, ranked⟩
                obtain rfl := Option.some.inj ranked
                cases position with
                | zero => simp [fits]
                | succ position => exact ih later position

/-- The rank of a candidate is that of the tiers of the arguments. -/
theorem exists_tiers_of_rank? {group : OverloadGroup} {arguments : List ScriptValue} {candidate : Candidate}
    {rank : Rank} (ranked : context.rank? system group arguments candidate = some rank) :
    ∃ tiers, rank = Rank.ofTiers tiers ∧
      ∀ position, context.argumentTier system group arguments candidate position = Tier.nth tiers position := by
  simp only [rank?] at ranked
  split at ranked
  next =>
    rcases Option.map_eq_some_iff.mp ranked with ⟨tiers, fitted, rfl⟩
    refine ⟨List.replicate (group.receiverCount candidate) .exact ++ tiers,
      (Rank.ofTiers_replicate_append _ tiers).symm, fun position => ?_⟩
    rw [argumentTier, Tier.nth_replicate_append, inputTier_eq fitted]
    rfl
  next => cases ranked

end Context

namespace Host

open Bridge

variable (host : Host)

/-- What is ranked before a candidate of the group keeps it from being chosen. -/
theorem not_chosen_of_better {group : OverloadGroup} {arguments : List ScriptValue} {world : World}
    {first second : Candidate} {better worse : Rank} (member : first ∈ group.candidates)
    (ranked : world.context.rank? host.system group arguments first = some better)
    (behind : world.context.rank? host.system group arguments second = some worse)
    (before : better.better worse = true) :
    (exec (host.resolveOverload group arguments) world).1 ≠ .ok second := by
  intro chosen
  rcases Context.choose?_eq_some_iff.mp ((host.exec_resolveOverload_eq_ok).mp chosen) with
    ⟨front, back, rank, split, matched, beaten, unbeaten⟩
  obtain rfl := Option.some.inj (behind.symm.trans matched)
  rw [split] at member
  rcases List.mem_append.mp member with front | later
  · exact Rank.better_asymm before (beaten first front better ranked)
  · rcases List.mem_cons.mp later with rfl | back
    · obtain rfl := Option.some.inj (ranked.symm.trans behind)
      exact Rank.not_better_self _ before
    · exact unbeaten first back better ranked before

/-- What is not ranked behind a candidate that is declared after it keeps that from being chosen. -/
theorem not_chosen_of_declared_before {group : OverloadGroup} {arguments : List ScriptValue} {world : World}
    {first second : Candidate} {better worse : Rank} {front back : List Candidate}
    (split : group.candidates = front ++ first :: back) (later : second ∉ front) (distinct : second ≠ first)
    (ranked : world.context.rank? host.system group arguments first = some better)
    (behind : world.context.rank? host.system group arguments second = some worse)
    (before : worse.better better = false) :
    (exec (host.resolveOverload group arguments) world).1 ≠ .ok second := by
  intro chosen
  rcases Context.choose?_eq_some_iff.mp ((host.exec_resolveOverload_eq_ok).mp chosen) with
    ⟨ahead, rest, rank, again, matched, beaten, -⟩
  obtain rfl := Option.some.inj (behind.symm.trans matched)
  have ahead_first : first ∈ ahead := by
    rcases List.append_eq_append_iff.mp (split.symm.trans again) with
      ⟨middle, rfl, between⟩ | ⟨middle, rfl, between⟩
    · rcases List.cons_eq_append_iff.mp between with ⟨-, same⟩ | ⟨others, rfl, -⟩
      · exact absurd (List.cons.inj same).1 distinct
      · exact List.mem_append_right _ List.mem_cons_self
    · rcases List.cons_eq_append_iff.mp between with ⟨-, same⟩ | ⟨others, rfl, -⟩
      · exact absurd (List.cons.inj same).1.symm distinct
      · exact absurd (List.mem_append_right _ List.mem_cons_self) later
  rw [beaten first ahead_first better ranked] at before
  cases before

/--
What the choice makes of a candidate that another one dominates: both match, and the other fits every argument at
least as well and some argument better, where the tier of a receiver counts as exact for a candidate that does not
take it and an empty variadic array counts as one more argument. The dominated candidate is not chosen, wherever it
is declared, if the other fits some argument exactly that it does not, or has no variadic fit. Otherwise both have
the same rank. In every case it is not chosen if the other is declared before it.
-/
theorem resolveOverload_dominated (group : OverloadGroup) (arguments : List ScriptValue) (world : World)
    (first second : Candidate) :
    let rank? := world.context.rank? host.system group arguments
    let tier := world.context.argumentTier host.system group arguments
    let choice := (exec (host.resolveOverload group arguments) world).1
    first ∈ group.candidates → (rank? first).isSome = true → (rank? second).isSome = true →
    (∀ position, (tier first position).cost ≤ (tier second position).cost) →
    (∃ position, (tier first position).cost < (tier second position).cost) →
    ((∃ position, tier first position = .exact ∧ tier second position ≠ .exact) ∨
        (∀ position, tier first position ≠ .variadic) → choice ≠ .ok second) ∧
    ((∀ position, tier first position = .exact → tier second position = .exact) →
      (∃ position, tier first position = .variadic) → rank? first = rank? second) ∧
    ∀ front back, group.candidates = front ++ first :: back → second ∉ front → choice ≠ .ok second := by
  intro rank? tier choice member matchesFirst matchesSecond dominates ⟨place, gained⟩
  rcases Option.isSome_iff_exists.mp matchesFirst with ⟨better, ranked⟩
  rcases Option.isSome_iff_exists.mp matchesSecond with ⟨worse, behind⟩
  rcases Context.exists_tiers_of_rank? ranked with ⟨left, rfl, lefts⟩
  rcases Context.exists_tiers_of_rank? behind with ⟨right, rfl, rights⟩
  simp only [tier, lefts, rights] at dominates gained ⊢
  refine ⟨fun decisive => ?_, fun exact ⟨_, collected⟩ => ?_, fun front back split later => ?_⟩
  · refine host.not_chosen_of_better member ranked behind ?_
    rcases decisive with ⟨_, exact, inexact⟩ | uncollected
    · exact Rank.better_of_exact dominates exact inexact
    · exact Rank.better_of_uncollected dominates gained uncollected
  · exact ranked.trans (Rank.eq_of_collected dominates exact collected ▸ behind.symm)
  · have distinct : second ≠ first := by
      rintro rfl
      rw [← lefts, ← rights] at gained
      exact Nat.lt_irrefl _ gained
    exact host.not_chosen_of_declared_before split later distinct ranked behind
      (Rank.not_better_of_dominates dominates)

theorem resolveOverload_dominated_text :
    let world : World := ⟨.empty, Context.fresh .standard ⟨1⟩, []⟩
    (exec (Realm.core.host.resolveOverload ⟨.object, "Show", .onType, [showAll, showText]⟩ [.string "a"]) world).1 ≠
      .ok showAll := by
  intro world
  refine (resolveOverload_dominated Realm.core.host ⟨.object, "Show", .onType, [showAll, showText]⟩ [.string "a"]
    world showText showAll (by decide) (by decide +kernel) (by decide +kernel) ?_ ⟨0, by decide +kernel⟩).1
    (.inl ⟨0, by decide +kernel⟩)
  rintro (_ | position)
  · decide +kernel
  · exact Nat.zero_le _

/-- Takes one value and collects numbers. -/
def showNumbered : Candidate :=
  showing [⟨"value", .host .object, .byValue, false⟩, ⟨"numbers", .host (.array .int32), .byValue, true⟩]

/-- A value that is taken is a better fit than one that is collected, but both have the same rank next to a number
that is collected, and the candidate that is declared first is chosen. -/
theorem not_forall_dominated_refused :
    ¬ ∀ (host : Host) (group : OverloadGroup) (arguments : List ScriptValue) (world : World)
        (first second : Candidate),
      let rank? := world.context.rank? host.system group arguments
      let tier := world.context.argumentTier host.system group arguments
      first ∈ group.candidates → second ∈ group.candidates →
      (rank? first).isSome = true → (rank? second).isSome = true →
      (∀ position < arguments.length, (tier first position).cost ≤ (tier second position).cost) →
      (∃ position < arguments.length, (tier first position).cost < (tier second position).cost) →
      (exec (host.resolveOverload group arguments) world).1 ≠ .ok second := by
  intro claimed
  refine claimed Realm.core.host ⟨.object, "Show", .onType, [showAll, showNumbered]⟩ [.string "a", .integer 1]
    ⟨.empty, Context.fresh .standard ⟨1⟩, []⟩ showNumbered showAll (by decide) (by decide) (by decide +kernel)
    (by decide +kernel) (by decide +kernel) ⟨0, by decide +kernel⟩ ?_
  rw [exec_resolveOverload_eq_ok]
  decide +kernel

end Host

end ScriptBridge
