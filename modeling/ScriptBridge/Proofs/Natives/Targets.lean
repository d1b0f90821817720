import ScriptBridge.Proofs.Natives.Legitimate
import ScriptBridge.Proofs.Natives.WriteBack

/-!
# Members and their targets

Each member works on what the script passed first, if it works on an instance at all,
and gives it back. Methods, accessors of indexers and events call native code at most
once, after everything else was looked at.
-/

namespace ScriptBridge

open Bridge World

/-- The results that a call of the callable may have though it worked on nothing. -/
def Callable.Rests : Callable → List ScriptValue → Prop
  | .method _, _ | .event _ _, _ => False
  | .fieldSetter field, _ => field.definition.isStatic = true
  | .itemGetter _ _, results | .itemSetter _ _, results => results = [.boolean false]
  | _, _ => True

namespace Host

variable {host : Host} {start world after : World}

/-- A method that works on an instance gets what is behind the first argument, and gives it back. -/
theorem goesBack_of_receiverFor {group : OverloadGroup} {candidate : Candidate} {arguments : List ScriptValue}
    {receiver : Option HostValue} {back : Option ProxyKey} {callable : Callable} {call : NativeCall}
    (run : exec (host.receiverFor group candidate arguments) world = (.ok (receiver, back), after))
    (takes : callable.Takes call.member (group.receiverCount candidate))
    (given : call.invocation.receiver = receiver) : call.GoesBack after callable arguments.head? back := by
  rw [receiverFor] at run
  rw [OverloadGroup.receiverCount] at takes
  cases shape : group.shape with
  | onInstance =>
      rw [shape] at run takes
      dsimp only at run
      split at run
      next isExtension =>
        rcases Prod.mk.inj (Except.ok.inj (Prod.mk.inj run).1) with ⟨-, rfl⟩
        exact .nowhere (by simpa [isExtension] using takes)
      next onInstance =>
        rcases exec_bind_eq_ok run with ⟨found, middle, looked, rest⟩
        rcases Prod.mk.inj rest with ⟨result, rfl⟩
        rcases Prod.mk.inj (Except.ok.inj result) with ⟨rfl, rfl⟩
        rcases finds_of_methodReceiver looked with ⟨rfl, proxy, passed, live, same, -⟩
        rw [← same]
        exact .toProxy (by simpa [onInstance] using takes) passed live given
  | construction =>
      rw [shape] at run takes
      dsimp only at run
      rcases exec_bind_eq_ok run with ⟨value, middle, -, rest⟩
      rcases Prod.mk.inj (Except.ok.inj (Prod.mk.inj rest).1) with ⟨-, rfl⟩
      exact .nowhere takes
  | onType =>
      rw [shape] at run takes
      rcases Prod.mk.inj (Except.ok.inj (Prod.mk.inj run).1) with ⟨-, rfl⟩
      exact .nowhere takes

theorem exec_discard_bind {ε α β : Type} (action : Bridge ε α) (next : Unit → Bridge ε β) (world : World) :
    exec (discard action >>= next) world = exec (action >>= fun _ => next ()) world := by
  rw [exec_bind, exec_discard, exec_bind]
  rcases exec action world with ⟨error | value, after⟩ <;> rfl

/-- An accessor calls native code, writes its receiver back, and gives its result. -/
theorem exec_runAccessorBy {ε α : Type} (runner : NativeRunner) (member : NativeMember) (given : List ScriptValue)
    (receiver : Option (HostValue × ProxyKey)) (arguments : List HostValue) (fail : HostException → ε)
    (rest : HostValue → Bridge ε α) (world : World) :
    exec (ExceptT.adapt fail (runAccessorBy runner member given receiver arguments) >>= rest) world =
      exec (do
        let completion ← ExceptT.adapt fail
          (runner ⟨member, given, ⟨member.owner, receiver.map Prod.fst, arguments, []⟩⟩)
        writeBack (receiver.map Prod.snd) completion.receiver
        rest completion.result) world := by
  rw [exec_bind, exec_adapt, runAccessorBy, exec_bind, exec_bind, exec_adapt]
  rcases exec (runner ⟨member, given, ⟨member.owner, receiver.map Prod.fst, arguments, []⟩⟩) world with
    ⟨exception | completion, later⟩
  · rfl
  · rcases completion with ⟨result, _ | left, written⟩
    · cases receiver <;> rfl
    · cases receiver with
      | none => rfl
      | some found =>
          simp only [writeBack, Option.map_some, Except.mapError]
          cases left.isCopied <;> rfl

variable {through : Callable → Prop} {target : Option ScriptValue} {α : Type} {rests accepts : α → Prop}

/-- Converting a value changes nothing. -/
theorem worksThrough_converted (value : ScriptValue) (type : TypeRef)
    {next : NativeRunner → HostValue → Bridge ScriptError α} (holds : (Invariant.standing start).holds world)
    (continues : ∀ converted,
      start.WorksThrough through target rests accepts fun runner => exec (next runner converted) world) :
    start.WorksThrough through target rests accepts fun runner => exec (host.toHost value type >>= next runner) world := by
  refine .after (keptBy_toHost value type world holds) fun converted middle run _ => ?_
  rw [exec_toHost] at run
  rcases (Prod.mk.inj run).2 with rfl
  exact continues converted

/-- A method group calls the candidate that it chooses, and then pushes what that gives. -/
theorem worksThrough_callGroupBy (callable : Callable) {group : OverloadGroup}
    (offers : ∀ candidate ∈ group.candidates, ∀ call : NativeCall, call.member = .method candidate.method →
      callable.Takes call.member (group.receiverCount candidate))
    (arguments : List ScriptValue) (holds : (Invariant.standing start).holds world) :
    start.WorksThrough (· = callable) arguments.head? (fun _ => False) (fun _ => True) fun runner =>
      exec (host.callGroupBy runner group arguments) world := by
  have respects := host.respects_standing start
  have pushes := fun start => (host.respects_standing start).push
  refine .after (respects.resolveOverload _ _ world holds) fun candidate resolved found holds => ?_
  refine .after (respects.hostArguments _ _ _ resolved holds) fun values converted _ holds => ?_
  refine .after (respects.receiverFor group candidate arguments holds).1 fun (receiver, back) before received holds => ?_
  refine .ofCall holds rfl ?_ (fun completion start => ?_) fun _ _ _ _ _ => trivial
  · exact goesBack_of_receiverFor received (offers candidate (mem_of_resolveOverload found) _ rfl) rfl
  · split
    · exact .bind (pushes start _) fun _ => .pure _
    · exact .mapM _ fun value _ => pushes start value

theorem worksThrough_constructGroupBy (group : OverloadGroup) (arguments : List ScriptValue)
    (holds : (Invariant.standing start).holds world) :
    start.WorksThrough (· = .constructor group) arguments.head? (fun _ => True) (fun _ => True) fun runner =>
      exec (host.constructGroupBy runner group arguments) world := by
  simp only [constructGroupBy]
  split
  · exact .quiet (Invariant.KeptBy.bind ((host.respects_standing start).push _) (fun _ => .pure _) world holds)
      fun _ => trivial
  · split
    · exact .still _ (fun _ => rfl) (fun _ _ => trivial) holds.2
    · exact (worksThrough_callGroupBy (.constructor group)
        (fun candidate listed _ same => ⟨candidate, listed, same, rfl⟩) _ holds).weaken (fun _ => id)
          (fun _ => False.elim) fun _ => id

section Items

variable {owner : TypeRef} {properties all : List PropertyDef} {given : List ScriptValue}
  {receiver : HostValue × ProxyKey}

/-- An accessor of an indexer works on the instance that was found behind the first argument. -/
theorem goesBack_of_finds {type : TypeRef} (finds : host.Finds world type given receiver) {callable : Callable}
    {call : NativeCall} (takes : callable.Takes call.member 1) (handed : call.invocation.receiver = some receiver.1) :
    call.GoesBack world callable given.head? (some receiver.2) := by
  rcases finds with ⟨proxy, passed, live, same, -⟩
  rw [← same]
  exact .toProxy takes passed live handed

theorem worksThrough_getItemFromBy (finds : host.Finds world owner given receiver) (key : ScriptValue)
    (holds : (Invariant.standing start).holds world) :
    start.WorksThrough (· = .itemGetter owner all) given.head? (· = [.boolean false])
      (fun results => ∃ value, results = [.boolean true, value]) fun runner => exec (host.getItemFromBy runner owner given receiver key properties) world := by
  induction properties with
  | nil => exact .pure rfl holds.2
  | cons property rest ih =>
      simp only [getItemFromBy]
      split
      next type getter _ _ =>
        simp only [exec_bind_of_ok (exec_fits key type world)]
        split
        · refine worksThrough_converted key type holds fun index => ?_
          simp only [exec_runAccessorBy]
          refine .ofCall holds rfl (goesBack_of_finds finds rfl rfl) (fun completion start => ?_)
            fun completion world result last run => ?_
          · exact .bind ((host.respects_standing start).push _) fun _ => .pure _
          · rcases exec_bind_eq_ok run with ⟨value, middle, -, given⟩
            exact ⟨value, (Except.ok.inj (Prod.mk.inj given).1).symm⟩
        · exact ih
      next => exact ih

theorem worksThrough_getItemBy (arguments : List ScriptValue) (holds : (Invariant.standing start).holds world) :
    start.WorksThrough (· = .itemGetter owner properties) arguments.head? (· = [.boolean false])
      (fun results => ∃ value, results = [.boolean true, value]) fun runner => exec (host.getItemBy runner owner properties arguments) world := by
  cases properties with
  | nil => exact .pure rfl holds.2
  | cons first rest =>
      refine .after ((findsInstance_expectInstance _ _ _).keeps world holds) fun receiver middle found holds => ?_
      rcases finds_of_expectInstance found with ⟨rfl, finds⟩
      exact worksThrough_getItemFromBy finds _ holds

theorem worksThrough_setItemInBy (finds : host.Finds world owner given receiver) (key value : ScriptValue)
    (holds : (Invariant.standing start).holds world) :
    start.WorksThrough (· = .itemSetter owner all) given.head? (· = [.boolean false]) (· = [.boolean true])
      fun runner => exec (host.setItemInBy runner owner given receiver key value properties) world := by
  induction properties with
  | nil => exact .pure rfl holds.2
  | cons property rest ih =>
      simp only [setItemInBy]
      split
      next type setter _ _ =>
        simp only [exec_bind_of_ok (exec_fits key type world)]
        split
        · simp only [exec_bind_of_ok (exec_fits value property.type world)]
          split
          · exact .throw _ holds.2
          · refine worksThrough_converted key type holds fun index =>
              worksThrough_converted value property.type holds fun item => ?_
            simp only [exec_discard_bind, exec_runAccessorBy]
            refine .ofCall holds rfl (goesBack_of_finds finds rfl rfl) (fun completion start => .pure _) ?_
            exact fun completion world result last run => (Except.ok.inj (Prod.mk.inj run).1).symm
        · exact ih
      next => exact ih

theorem worksThrough_setItemBy (arguments : List ScriptValue) (holds : (Invariant.standing start).holds world) :
    start.WorksThrough (· = .itemSetter owner properties) arguments.head? (· = [.boolean false]) (· = [.boolean true])
      fun runner => exec (host.setItemBy runner owner properties arguments) world := by
  cases properties with
  | nil => exact .pure rfl holds.2
  | cons first rest =>
      refine .after ((findsInstance_expectInstance _ _ _).keeps world holds) fun receiver middle found holds => ?_
      rcases finds_of_expectInstance found with ⟨rfl, finds⟩
      exact worksThrough_setItemInBy finds _ _ holds

end Items

/-- The instance that a member works on is the one behind the first argument. -/
theorem finds_of_memberReceiver {isStatic : Bool} {type : TypeRef} {activity : String} {arguments : List ScriptValue}
    {receiver : Option (HostValue × ProxyKey)}
    (run : exec (host.memberReceiver isStatic type activity arguments) world = (.ok receiver, after)) :
    after = world ∧ ((isStatic = true ∧ receiver = none) ∨
      isStatic = false ∧ ∃ found, receiver = some found ∧ host.Finds world type arguments found) := by
  rw [memberReceiver] at run
  cases isStatic with
  | true =>
      rcases Prod.mk.inj run with ⟨result, rfl⟩
      exact ⟨rfl, .inl ⟨rfl, (Except.ok.inj result).symm⟩⟩
  | false =>
      rcases exec_bind_eq_ok run with ⟨found, middle, looked, rest⟩
      rcases Prod.mk.inj rest with ⟨result, rfl⟩
      rcases finds_of_expectInstance looked with ⟨rfl, finds⟩
      exact ⟨rfl, .inr ⟨rfl, found, (Except.ok.inj result).symm, finds⟩⟩

theorem worksThrough_changeEventBy (owner : TypeRef) (event : EventDef) (arguments : List ScriptValue)
    (holds : (Invariant.standing start).holds world) :
    start.WorksThrough (· = .event owner event) arguments.head? (fun _ => False) (fun _ => True) fun runner =>
      exec (host.changeEventBy runner owner event arguments) world := by
  refine .after (keptBy_findsReceiver _ _ _ _ world holds) fun receiver middle found holds => ?_
  rcases finds_of_memberReceiver found with ⟨rfl, finds⟩
  dsimp only
  split
  next => exact .throw _ holds.2
  next accessor _ =>
    split
    · refine worksThrough_converted _ _ holds fun delegate => ?_
      simp only [exec_discard_bind, exec_runAccessorBy]
      refine .ofCall holds rfl ?_ (fun completion start => .pure _) fun _ _ _ _ _ => trivial
      rcases finds with ⟨isStatic, rfl⟩ | ⟨onInstance, _, rfl, finds⟩
      · exact .nowhere (by simp [Callable.Takes, isStatic])
      · exact goesBack_of_finds finds (by simp [Callable.Takes, onInstance]) rfl
    · exact .throw _ holds.2

/-- A field of an instance is written in the instance behind the first argument, and that is written back. -/
theorem worksThrough_setField (field : Field) (arguments : List ScriptValue)
    (holds : (Invariant.standing start).holds world) :
    start.WorksThrough (· = .fieldSetter field) arguments.head? (fun _ => field.definition.isStatic = true)
      (fun _ => True) fun _ => exec (host.setField field arguments) world := by
  refine .after (keptBy_findsReceiver _ _ _ _ world holds) fun receiver middle found holds => ?_
  rcases finds_of_memberReceiver found with ⟨rfl, finds⟩
  generalize argumentAt arguments (if field.definition.isStatic then 0 else 1) = item
  simp only [exec_bind_of_ok (exec_fits item field.definition.type middle)]
  split
  · exact .throw _ holds.2
  · refine worksThrough_converted _ _ holds fun converted => ?_
    simp only [exec_bind_of_ok (exec_store middle)]
    rcases finds with ⟨isStatic, rfl⟩ | ⟨onInstance, ⟨value, key⟩, rfl, proxy, passed, live, rfl, -⟩
    · split <;> exact .still _ (fun _ => rfl) (fun _ _ => isStatic) holds.2
    · cases wrote : middle.store.writeField? field (some value) converted with
      | none =>
          refine .field field proxy value converted middle middle [] (fun _ => ?_) trivial rfl onInstance holds.2
            passed live ?_
          · simp only [Option.map_some, wrote]
            rfl
          · rw [World.WritesField, wrote]
            exact .refl middle
      | some left =>
          rcases left with ⟨written, store⟩
          have consistent : ({ middle with store := store } : World).context.cache.Consistent := holds.1
          rcases @exec_writeBack _ ScriptError consistent (some proxy.key) written with ⟨last, ran, -, returned⟩
          refine .field field proxy value converted middle last [] (fun _ => ?_) trivial rfl onInstance holds.2
            passed live ?_
          · simp only [Option.map_some, wrote, exec_bind_of_ok (exec_setStore store middle)]
            exact exec_bind_of_ok ran _
          · rw [World.WritesField, wrote]
            exact returned

/-- Every member works on the first argument, if it works on an instance. -/
theorem worksThrough_runMemberBy (callable : Callable) (arguments : List ScriptValue)
    (holds : (Invariant.standing start).holds world) :
    start.WorksThrough (· = callable) arguments.head? callable.Rests (fun _ => True) fun runner =>
      exec (host.runMemberBy runner callable arguments) world := by
  have respects := host.respects_standing start
  cases callable with
  | method group =>
      exact worksThrough_callGroupBy (.method group) (fun candidate listed _ same => ⟨candidate, listed, same, rfl⟩) _ holds
  | fieldGetter field => exact .quiet (respects.getField _ _ world holds) fun _ => trivial
  | fieldSetter field => exact worksThrough_setField field arguments holds
  | itemGetter owner properties =>
      exact (worksThrough_getItemBy arguments holds).weaken (fun _ => id) (fun _ => id) fun _ _ => trivial
  | itemSetter owner properties =>
      exact (worksThrough_setItemBy arguments holds).weaken (fun _ => id) (fun _ => id) fun _ _ => trivial
  | event owner event => exact worksThrough_changeEventBy owner event arguments holds
  | constructor group => exact worksThrough_constructGroupBy group arguments holds
  | delegateConstructor type => exact .quiet (respects.wrapDelegate _ _ world holds) fun _ => trivial
  | enumCast type => exact .quiet (respects.castToEnum _ _ world holds) fun _ => trivial
  | placeholder member => exact .throw _ holds.2
  | embedder name body => exact .throw _ holds.2

end Host

end ScriptBridge
