import ScriptBridge.Proofs.Natives.Receivers
import ScriptBridge.Proofs.Natives.Refused

/-!
# Receivers that are written back

An operation works on the instance behind its target in one of three ways: not at
all, by writing one of its fields, or in one call of native code. A copy that is left
as the receiver then takes the place of the one behind the target. All other proxies,
and the target as well where nothing is left, stand for what they stood for.
-/

namespace ScriptBridge

open Bridge

/-- An entry once a receiver was written back to some key; only copies take the place of what was there. -/
def CacheEntry.writtenBack (entry : CacheEntry) (key : ProxyKey) (back : Option ProxyKey)
    (receiver : Option HostValue) : CacheEntry :=
  match back, receiver with
  | some target, some left => if key = target ∧ left.isCopied = true then { entry with value := left } else entry
  | _, _ => entry

theorem CacheEntry.writtenBack_of_ne {entry : CacheEntry} {key : ProxyKey} {back : Option ProxyKey}
    (other : ∀ target, back = some target → key ≠ target) (receiver : Option HostValue) :
    entry.writtenBack key back receiver = entry := by
  cases back with
  | none => rfl
  | some target =>
      cases receiver with
      | none => rfl
      | some left => exact if_neg fun same => other target rfl same.1

/-- Every live proxy stands for what it stood for, but the one that a receiver is written back to stands for that. -/
def World.WritesBack (before after : World) (back : Option ProxyKey) (receiver : Option HostValue) : Prop :=
  ∀ key entry, before.context.cache.lookup? key = some entry →
    after.context.cache.lookup? key = some (entry.writtenBack key back receiver)

/-- Every live proxy stands for what it stood for. -/
def World.KeepsProxies (before after : World) : Prop :=
  ∀ key entry, before.context.cache.lookup? key = some entry → after.context.cache.lookup? key = some entry

namespace World

variable {before middle after : World} {back : Option ProxyKey} {receiver : Option HostValue}

theorem KeepsProxies.refl (world : World) : world.KeepsProxies world := fun _ _ => id

theorem KeepsProxies.trans (first : before.KeepsProxies middle) (second : middle.KeepsProxies after) :
    before.KeepsProxies after :=
  fun key entry live => second key entry (first key entry live)

theorem WritesBack.trans (first : before.WritesBack middle back receiver) (second : middle.KeepsProxies after) :
    before.WritesBack after back receiver :=
  fun key entry live => second key _ (first key entry live)

end World

/-- Some proxies stand for something. -/
def Invariant.standing (start : World) : Invariant where
  holds world := world.context.cache.Consistent ∧ start.KeepsProxies world
  excuses := fun _ => False

namespace Host

variable {host : Host} {start world after : World}

theorem standing_of_bindStep (step : host.BindStep world after) (holds : (Invariant.standing start).holds world) :
    (Invariant.standing start).holds after :=
  ⟨(Host.Step.bind step).consistent holds.1, holds.2.trans (step.untouched holds.1).proxies⟩

/-- Preparing a call, and pushing what it gives, makes new proxies only. -/
theorem respects_standing (host : Host) (start : World) : host.RespectsPreparation (Invariant.standing start) :=
  respectsPreparation_of_bindSteps standing_of_bindStep fun _ => id

theorem standing_refl (consistent : world.context.cache.Consistent) : (Invariant.standing world).holds world :=
  ⟨consistent, .refl world⟩

/-- Writing a receiver back changes what the proxy of its key stands for, and nothing else. -/
theorem exec_writeBack {ε : Type} (consistent : world.context.cache.Consistent) (back : Option ProxyKey)
    (receiver : Option HostValue) :
    ∃ last, exec (writeBack back receiver : Bridge ε Unit) world = (.ok (), last) ∧
      last.context.cache.Consistent ∧ world.WritesBack last back receiver := by
  have nothing : (∀ key entry, world.context.cache.lookup? key = some entry →
        entry.writtenBack key back receiver = entry) → world.WritesBack world back receiver :=
    fun same key entry live => by rw [same key entry live, live]
  simp only [writeBack]
  split
  next target left =>
    split
    next copied =>
      refine ⟨_, rfl, ?_⟩
      dsimp only [World.WritesBack]
      rw [IdentityCache.update]
      cases updated : world.context.cache.update? target left with
      | none =>
          refine ⟨consistent, nothing fun key entry live => ?_⟩
          rw [IdentityCache.update?, Option.map_eq_none_iff] at updated
          rw [CacheEntry.writtenBack, if_neg]
          rintro ⟨rfl, -⟩
          rw [updated] at live
          cases live
      | some changed =>
          refine ⟨consistent.update? updated, fun key entry live => ?_⟩
          rw [Option.getD_some, IdentityCache.lookup?_update? updated, CacheEntry.writtenBack]
          by_cases same : key = target
          · rw [if_pos same, if_pos ⟨same, copied⟩, ← same, live]
            rfl
          · rw [if_neg same, if_neg fun both => same both.1, live]
    next shared => exact ⟨world, rfl, consistent, nothing fun _ _ _ => if_neg fun both => shared both.2⟩
  next absent =>
    refine ⟨world, rfl, consistent, nothing fun _ _ _ => ?_⟩
    rw [CacheEntry.writtenBack]
    exact absent

/-- What is done after a receiver was written back leaves the proxies alone. -/
theorem writesBack_returned {ε α : Type} [BindingFailure ε] (consistent : world.context.cache.Consistent)
    (back : Option ProxyKey) (receiver : Option HostValue) {rest : Bridge ε α}
    (kept : ∀ start, (Invariant.standing start).KeptBy rest) (store : HostStore) :
    world.WritesBack
      (exec (do writeBack back receiver; rest) { world with store := store }).2 back receiver := by
  have consistentToo : ({ world with store := store } : World).context.cache.Consistent := consistent
  rcases @exec_writeBack _ ε consistentToo back receiver with ⟨middle, written, consistentThen, returned⟩
  rw [exec_bind_of_ok written]
  have holds := (kept middle middle ⟨consistentThen, .refl middle⟩).holds fun _ => id
  exact World.WritesBack.trans returned holds.2

end Host

/-- How many leading arguments the member of a callable works on: the first one, or none. -/
def Callable.Takes (member : NativeMember) (count : Nat) : Callable → Prop
  | .method group | .constructor group =>
      ∃ candidate ∈ group.candidates, member = .method candidate.method ∧ group.receiverCount candidate = count
  | .itemGetter _ _ | .itemSetter _ _ => count = 1
  | .event _ declared => count = if declared.isStatic then 0 else 1
  | _ => False

/--
The proxy that the receiver of a call goes back to: a member that works on the first argument gets what is behind
it, and gives it back; other members give nothing back.
-/
inductive NativeCall.GoesBack (call : NativeCall) (world : World) (callable : Callable) (target : Option ScriptValue) :
    Option ProxyKey → Prop
  | toProxy {proxy : Proxy} {value : HostValue} (takes : callable.Takes call.member 1)
      (passed : target = some (.proxy proxy)) (live : world.context.cache.resolve? proxy = some value)
      (receiver : call.invocation.receiver = some value) : GoesBack call world callable target (some proxy.key)
  | nowhere (takes : callable.Takes call.member 0) : GoesBack call world callable target none

/-- What a write of a field does to the proxies: the instance is written back, if the field can be written at all. -/
def World.WritesField (before after : World) (field : Field) (proxy : Proxy) (value converted : HostValue) : Prop :=
  match before.store.writeField? field (some value) converted with
  | some (written, _) => before.WritesBack after (some proxy.key) written
  | none => before.KeepsProxies after

/--
How runs from a world work on a target through some callable, whatever becomes of native code. Proxies that are live
in the world stand for what they stood for until a receiver is written back, and no other receiver is. A run rests
with some results where it did nothing to the target, and accepts with some where it did.
-/
inductive World.WorksThrough (start : World) (through : Callable → Prop) (target : Option ScriptValue) {ε α : Type}
    (rests accepts : α → Prop) (runs : NativeRunner → Except ε α × World) : Prop
  /-- No native code runs, and nothing is written back. -/
  | still (last : Except ε α × World) (same : ∀ runner, runs runner = last)
      (resting : ∀ result, last.1 = .ok result → rests result) (kept : start.KeepsProxies last.2)
  /-- A field of the instance behind the target is written. -/
  | field (field : Field) (proxy : Proxy) (value converted : HostValue) (begun last : World) (result : α)
      (same : ∀ runner, runs runner = (.ok result, last)) (accepted : accepts result)
      (chosen : through (.fieldSetter field)) (onInstance : field.definition.isStatic = false)
      (prepared : start.KeepsProxies begun) (passed : target = some (.proxy proxy))
      (live : begun.context.cache.resolve? proxy = some value)
      (written : begun.WritesField last field proxy value converted)
  /--
  Native code runs once. If it throws, then so does the run and nothing is written back; if it completes, then
  its receiver is written back as it left it.
  -/
  | native (callable : Callable) (call : NativeCall) (begun : World) (back : Option ProxyKey)
      (finish : Except HostException Completion × World → Except ε α × World)
      (once : ∀ runner, runs runner = finish (exec (runner call) begun)) (chosen : through callable)
      (prepared : start.KeepsProxies begun) (goesBack : call.GoesBack begun callable target back)
      (throws : ∀ exception later, ∃ error, finish (.error exception, later) = (.error error, later))
      (completes : ∀ completion store, begun.WritesBack
        (finish (.ok completion, { begun with store := store })).2 back completion.receiver)
      (accepted : ∀ completion later result last, finish (.ok completion, later) = (.ok result, last) →
        accepts result)

/-- What follows an ending: only a value is passed on. -/
def World.proceed {ε α β : Type} (next : α → Bridge ε β) : Except ε α × World → Except ε β × World
  | (.ok value, last) => exec (next value) last
  | (.error error, last) => (.error error, last)

namespace World.WorksThrough

variable {ε δ α β : Type} {start world begun : World} {through among : Callable → Prop} {target : Option ScriptValue}
  {rests accepts : α → Prop} {resting accepted : β → Prop}

/-- What follows and only gives a result leaves the world as it was, whichever runner there is. -/
theorem proceed_of_ends {next : NativeRunner → α → Bridge ε β} {run : Except ε α × World}
    (ends : ∀ value, run.1 = .ok value → ∃ result, accepted result ∧ ∀ runner, next runner value = pure result)
    (runner other : NativeRunner) :
    World.proceed (next runner) run = World.proceed (next other) run ∧ (World.proceed (next other) run).2 = run.2 ∧
      ∀ result last, World.proceed (next other) run = (.ok result, last) → accepted result := by
  rcases run with ⟨result, last⟩
  cases result with
  | error error => exact ⟨rfl, rfl, fun _ _ impossible => by cases impossible⟩
  | ok value =>
      rcases ends value rfl with ⟨result, holds, settled⟩
      simp only [World.proceed, settled, exec_pure, true_and]
      intro found middle same
      rcases Except.ok.inj (Prod.mk.inj same).1 with rfl
      exact holds

/-- What follows may go on to work on the target only where nothing was done yet. -/
theorem bind {action : NativeRunner → Bridge ε α} {next : NativeRunner → α → Bridge ε β}
    (first : start.WorksThrough among target rests accepts fun runner => exec (action runner) world)
    (leads : ∀ callable, among callable → through callable)
    (ends : ∀ value, accepts value → ∃ result, accepted result ∧ ∀ runner, next runner value = pure result)
    (continues : ∀ value middle, rests value → (∀ runner, exec (action runner) world = (.ok value, middle)) →
      start.KeepsProxies middle →
      start.WorksThrough through target resting accepted fun runner => exec (next runner value) middle) :
    start.WorksThrough through target resting accepted fun runner => exec (action runner >>= next runner) world := by
  cases first with
  | still last same rested kept =>
      rcases last with ⟨result, middle⟩
      cases result with
      | error error =>
          exact .still (.error error, middle) (fun runner => exec_bind_of_error (same runner) _)
            (fun _ impossible => by cases impossible) kept
      | ok value =>
          have rest := continues value middle (rested value rfl) same kept
          simpa only [exec_bind_of_ok (same _)] using rest
  | field field proxy value converted begun last found same accepting chosen onInstance prepared passed live written =>
      rcases ends found accepting with ⟨result, accepted, settled⟩
      refine .field field proxy value converted begun last result (fun runner => ?_) accepted (leads _ chosen)
        onInstance prepared passed live written
      rw [exec_bind_of_ok (same runner), settled]
      rfl
  | native callable call begun back finish once chosen prepared goesBack throws completes acceptedThen =>
      -- what follows a call of native code is the same with every runner
      let other : NativeRunner := fun _ => throw (.plain "")
      have proceeds (completion : Completion) (later : World) (runner : NativeRunner) :=
        have settles (value : α) (same : (finish (.ok completion, later)).1 = .ok value) :=
          ends value (acceptedThen completion later value _ (Prod.ext same rfl))
        proceed_of_ends settles runner other
      refine .native callable call begun back (fun ending => World.proceed (next other) (finish ending))
        (fun runner => ?_) (leads _ chosen) prepared goesBack (fun exception later => ?_) (fun completion store => ?_)
        fun completion later => (proceeds completion later other).2.2
      · rw [exec_bind, once runner]
        rcases exec (runner call) begun with ⟨exception | completion, later⟩
        · rcases throws exception later with ⟨error, failed⟩
          rw [failed]
          rfl
        · rw [← (proceeds completion later runner).1]
          rfl
      · rcases throws exception later with ⟨error, failed⟩
        exact ⟨error, by rw [failed]; rfl⟩
      · rw [(proceeds completion _ other).2.1]
        exact completes completion store

theorem map {action : NativeRunner → Bridge ε α} (change : α → β)
    (works : start.WorksThrough through target rests accepts fun runner => exec (action runner) world)
    (resting' : ∀ value, rests value → resting (change value))
    (accepting : ∀ value, accepts value → accepted (change value)) :
    start.WorksThrough through target resting accepted fun runner => exec (change <$> action runner) world := by
  simp only [← bind_pure_comp]
  refine works.bind (fun _ => id) (fun value holds => ⟨change value, accepting value holds, fun _ => rfl⟩)
    fun value middle rested _ kept => .still (.ok (change value), middle) (fun _ => rfl) ?_ kept
  intro result same
  rcases Except.ok.inj same with rfl
  exact resting' value rested

theorem adapt {action : NativeRunner → Bridge ε α} (change : ε → δ)
    (works : start.WorksThrough through target rests accepts fun runner => exec (action runner) world) :
    start.WorksThrough through target rests accepts fun runner =>
      exec (ExceptT.adapt change (action runner)) world := by
  have succeeds {result : Except ε α} {value : α} (same : result.mapError change = .ok value) : result = .ok value := by
    cases result with
    | error error => cases same
    | ok found => exact congrArg Except.ok (Except.ok.inj same)
  simp only [exec_adapt]
  cases works with
  | still last same rested kept =>
      exact .still (last.1.mapError change, last.2) (fun runner => by rw [same])
        (fun result settled => rested result (succeeds settled)) kept
  | field field proxy value converted begun last found same holds chosen onInstance prepared passed live written =>
      exact .field field proxy value converted begun last found (fun runner => by rw [same]; rfl) holds
        chosen onInstance prepared passed live written
  | native callable call begun back finish once chosen prepared goesBack throws completes holds =>
      refine .native callable call begun back (fun ending => ((finish ending).1.mapError change, (finish ending).2))
        (fun runner => by rw [once]) chosen prepared goesBack (fun exception later => ?_) completes ?_
      · rcases throws exception later with ⟨error, failed⟩
        exact ⟨change error, by rw [failed]; rfl⟩
      · intro completion later result last run
        rcases Prod.mk.inj run with ⟨settled, rfl⟩
        exact holds completion later result _ (Prod.ext (succeeds settled) rfl)

theorem weaken {runs : NativeRunner → Except ε α × World} {restsToo acceptsToo : α → Prop}
    (works : start.WorksThrough among target rests accepts runs) (leads : ∀ callable, among callable → through callable)
    (resting : ∀ value, rests value → restsToo value) (accepting : ∀ value, accepts value → acceptsToo value) :
    start.WorksThrough through target restsToo acceptsToo runs := by
  cases works with
  | still last same rested kept => exact .still last same (fun result settled => resting _ (rested result settled)) kept
  | field field proxy value converted begun last found same holds chosen onInstance prepared passed live written =>
      exact .field field proxy value converted begun last found same (accepting _ holds) (leads _ chosen)
        onInstance prepared passed live written
  | native callable call begun back finish once chosen prepared goesBack throws completes holds =>
      exact .native callable call begun back finish once (leads _ chosen) prepared goesBack throws completes
        fun completion later result last run => accepting _ (holds completion later result last run)

theorem throw (error : ε) (kept : start.KeepsProxies world) :
    start.WorksThrough through target rests accepts fun _ => exec (MonadExcept.throw error : Bridge ε α) world :=
  .still (.error error, world) (fun _ => rfl) (fun _ impossible => by cases impossible) kept

theorem pure {value : α} (rested : rests value) (kept : start.KeepsProxies world) :
    start.WorksThrough through target rests accepts fun _ => exec (Pure.pure value : Bridge ε α) world :=
  .still (.ok value, world) (fun _ => rfl) (fun _ same => Except.ok.inj same ▸ rested) kept

variable [BindingFailure ε]

theorem quiet {action : Bridge ε α} (arrives : (Invariant.standing start).Arrives (exec action world))
    (rested : ∀ value, rests value) : start.WorksThrough through target rests accepts fun _ => exec action world :=
  .still _ (fun _ => rfl) (fun value _ => rested value) (arrives.holds fun _ => id).2

/-- What is done before the target is worked on makes new proxies only. -/
theorem after {action : Bridge ε α} {next : NativeRunner → α → Bridge ε β}
    (arrives : (Invariant.standing start).Arrives (exec action world))
    (continues : ∀ value middle, exec action world = (.ok value, middle) → (Invariant.standing start).holds middle →
      start.WorksThrough through target resting accepted fun runner => exec (next runner value) middle) :
    start.WorksThrough through target resting accepted fun runner => exec (action >>= next runner) world := by
  have holds := arrives.holds fun _ => id
  cases run : exec action world with
  | mk result middle =>
      rw [run] at holds
      cases result with
      | error error =>
          exact .still (.error error, middle) (fun runner => exec_bind_of_error run _)
            (fun _ impossible => by cases impossible) holds.2
      | ok value =>
          have rest := continues value middle run holds
          simpa only [exec_bind_of_ok run] using rest

/-- A call of native code after which its receiver is written back. -/
theorem ofCall {call : NativeCall} {callable : Callable} {back : Option ProxyKey} {fail : HostException → ε}
    {rest : Completion → Bridge ε α} (holds : (Invariant.standing start).holds begun) (chosen : through callable)
    (goesBack : call.GoesBack begun callable target back)
    (kept : ∀ completion start, (Invariant.standing start).KeptBy (rest completion))
    (accepting : ∀ completion world result last, exec (rest completion) world = (.ok result, last) → accepts result) :
    start.WorksThrough through target rests accepts fun runner => exec (do
      let completion ← ExceptT.adapt fail (runner call)
      Host.writeBack back completion.receiver
      rest completion) begun := by
  refine .native callable call begun back
    (fun ending => match ending with
      | (.ok completion, later) => exec (do Host.writeBack back completion.receiver; rest completion) later
      | (.error exception, later) => (.error (fail exception), later))
    (fun runner => ?_) chosen holds.2 goesBack (fun exception later => ⟨fail exception, rfl⟩)
    (fun completion store => Host.writesBack_returned holds.1 back completion.receiver (kept completion) store)
    fun completion later result last run => ?_
  · rw [exec_bind, exec_adapt]
    rcases exec (runner call) begun with ⟨exception | completion, later⟩ <;> rfl
  · rcases exec_bind_eq_ok run with ⟨_, middle, -, finished⟩
    exact accepting completion middle result last finished

end World.WorksThrough

end ScriptBridge
