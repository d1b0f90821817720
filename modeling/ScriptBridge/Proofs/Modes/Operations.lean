import ScriptBridge.Context.Operation
import ScriptBridge.Proofs.Modes.Dispatch

/-!
# Every operation in both modes

Tables of types and namespaces, calls, operators and the release of proxies in
two agreeing worlds, up to the operations that can be asked of a context.
-/

namespace ScriptBridge

open Bridge

namespace Comparison

variable {c : Comparison} {before : World × World} {left right : World} {type : TypeRef}
  {binding other : TypeBinding}

/-- A function of both sides for the same member, or nothing on both sides. -/
abbrev HandedIfAny (c : Comparison) (left right : World) : Option ScriptValue → Option ScriptValue → Prop :=
  Option.Rel (c.Handed left right)

theorem simulates_loadedClass (type : TypeRef) (agree : c.Agree before.1 before.2) :
    c.Simulates none before (Bridge.asScript (c.host.loadClass type))
      (Bridge.asScript (c.host.loadClass type))
      c.Handed :=
  ((simulates_loadClass type agree).adapt _).mono fun _ _ _ _ _ same => same.handed

theorem simulates_readStaticAlong (agree : c.Agree before.1 before.2) (name : String) (isFirst : Bool)
    (chain : List TypeRef) :
    c.Simulates none before (Host.readStaticAlong c.host.invoke name isFirst chain)
      (Host.readStaticAlong c.host.invoke name isFirst chain) c.HandedIfAny := by
  induction chain generalizing before isFirst with
  | nil => exact .pure agree .none
  | cons type rest ih =>
      rw [Host.readStaticAlong]
      apply Simulates.context
      apply Simulates.onBinding agree type (ih agree false)
      intro binding other otherFound bindings
      have entries : c.Handed before.1 before.2
          (if isFirst then .nil else before.1.context.heap.get binding.classTable (.string name))
          (if isFirst then .nil else before.2.context.heap.get other.classTable (.string name)) := by
        rw [bindings.classTable]
        split
        · exact .nil
        · exact agree.handed_get _ _
      have methods := bindings.slot? otherFound .classMethods name
      have getters := bindings.slot? otherFound .classGetters name
      dsimp only
      generalize (if isFirst = true then ScriptValue.nil
        else before.1.context.heap.get binding.classTable (.string name)) = entry at *
      generalize (if isFirst = true then ScriptValue.nil
        else before.2.context.heap.get other.classTable (.string name)) = otherEntry at *
      rw [entries.isNil_eq]
      split
      · exact .pure agree (.some entries)
      · generalize binding.slot? .classMethods name = method at *
        generalize other.slot? .classMethods name = otherMethod at *
        generalize binding.slot? .classGetters name = getter at *
        generalize other.slot? .classGetters name = otherGetter at *
        cases methods with
        | some stands => exact .pure agree (.some (.function stands))
        | none =>
            cases getters with
            | some stands =>
                have noFunctions : NoFunctions [] := List.forall_mem_nil _
                apply (simulates_firstResult agree stands noFunctions).bind
                intro _ _ after agree _ same
                exact .pure agree (.some same.handed)
            | none => exact ih agree false

/-- Static members of the type and its ancestors come before nested types. -/
theorem simulates_indexType (agree : c.Agree before.1 before.2) (type : TypeRef) (key : ScriptValue) :
    c.Simulates none before (c.host.indexType c.host.invoke type key)
      (c.host.indexType c.host.invoke type (key.retag c.rename)) c.Handed := by
  simp only [Host.indexType]
  rw [ScriptValue.asString?_retag]
  split
  next => exact .pure agree .nil
  next name _ =>
    apply Simulates.context
    rw [agree.lookupChain_eq]
    apply (simulates_readStaticAlong agree name true _).bind
    intro _ _ after agree _ same
    cases same with
    | some handed => exact .pure agree handed
    | none =>
        dsimp only
        split
        · exact simulates_loadedClass _ agree
        · exact .pure agree .nil

theorem Agree.staticSetter? (agree : c.Agree left right) (name : String) (chain : List TypeRef) :
    Option.Rel (c.SlotsStand left right) (Host.staticSetter? left.context name chain)
      (Host.staticSetter? right.context name chain) := by
  induction chain with
  | nil => exact .none
  | cons type rest ih =>
      rw [Host.staticSetter?, Host.staticSetter?, List.findSome?_cons, List.findSome?_cons]
      rcases agree.binding?_cases type with ⟨absent, otherAbsent⟩ | ⟨binding, other, found, otherFound, bindings⟩
      · rw [absent, otherAbsent]
        exact ih
      · rw [found, otherFound, Option.bind_some, Option.bind_some]
        have setters := bindings.slot? otherFound .classSetters name
        generalize binding.slot? .classSetters name = setter at *
        generalize other.slot? .classSetters name = otherSetter at *
        cases setters with
        | some stands => exact .some stands
        | none => exact ih

theorem simulates_assignType (agree : c.Agree before.1 before.2) (type : TypeRef) (key : ScriptValue)
    {item : ScriptValue} (noFunction : item.asFunction? = none) :
    c.Simulates none before (c.host.assignType c.host.invoke type key item)
      (c.host.assignType c.host.invoke type (key.retag c.rename) (item.retag c.rename)) Equal := by
  unfold Host.assignType
  apply Simulates.context
  have setters : Option.Rel (c.SlotsStand before.1 before.2)
      (key.asString?.bind fun name => Host.staticSetter? before.1.context name
        (before.1.context.lookupChain c.host.system type))
      (key.asString?.bind fun name => Host.staticSetter? before.2.context name
        (before.2.context.lookupChain c.host.system type)) := by
    rw [agree.lookupChain_eq]
    cases key.asString? with
    | none => exact .none
    | some name => exact agree.staticSetter? name _
  dsimp only
  rw [ScriptValue.asString?_retag, Host.noSuchField, Host.noSuchField, ScriptValue.keyText_retag]
  generalize (key.asString?.bind fun name => Host.staticSetter? before.1.context name
    (before.1.context.lookupChain c.host.system type)) = setter at *
  generalize (key.asString?.bind fun name => Host.staticSetter? before.2.context name
    (before.2.context.lookupChain c.host.system type)) = otherSetter at *
  cases setters with
  | none => exact .throw agree _
  | some stands =>
      have noFunctions : NoFunctions [item] := List.forall_mem_singleton.mpr noFunction
      exact (simulates_invoke agree stands noFunctions).discard

theorem simulates_indexNamespace (agree : c.Agree before.1 before.2) (table : TableId) (path : String)
    (key : ScriptValue) :
    c.Simulates none before (c.host.indexNamespace table path key)
      (c.host.indexNamespace table path (key.retag c.rename)) c.Handed := by
  unfold Host.indexNamespace
  rw [ScriptValue.asString?_retag]
  split
  next => exact .pure agree .nil
  next name _ =>
    dsimp only
    split
    · exact simulates_loadedClass _ agree
    · split
      · apply (simulates_createTable agree _).bind
        intro _ deeper after agree _ same
        rcases same with rfl
        apply (simulates_writeEntry agree table name (.table deeper)).bind
        intro _ _ after agree _ _
        exact .pure agree (.table deeper)
      · exact .pure agree .nil

theorem simulates_indexTable (agree : c.Agree before.1 before.2) (id : TableId) (key : ScriptValue) :
    c.Simulates none before (c.host.indexTable c.host.invoke id key)
      (c.host.indexTable c.host.invoke id (key.retag c.rename)) c.Handed := by
  unfold Host.indexTable
  apply Simulates.context
  have entries : c.Handed before.1 before.2
      ((ScriptKey.ofValue? key).elim .nil (before.1.context.heap.get id))
      ((ScriptKey.ofValue? key).elim .nil (before.2.context.heap.get id)) := by
    cases ScriptKey.ofValue? key with
    | none => exact .nil
    | some key => exact agree.handed_get id key
  dsimp only
  rw [ScriptValue.ofValue?_retag, entries.isNil_eq, agree.heap.kind?_eq]
  split
  · exact .pure agree entries
  · split
    · exact simulates_indexType agree _ key
    · exact simulates_indexNamespace agree id _ key
    · exact .pure agree .nil

/-- Neither side can index a function. -/
theorem simulates_index (agree : c.Agree before.1 before.2) {target otherTarget : ScriptValue}
    (handed : c.Handed before.1 before.2 target otherTarget) {key : ScriptValue}
    (noFunction : key.asFunction? = none) :
    c.Simulates none before (c.host.index target key) (c.host.index otherTarget (key.retag c.rename))
      c.Handed := by
  cases handed with
  | function stands => exact .throw agree _
  | data target _ =>
      cases target with
      | proxy proxy => exact simulates_indexInstance agree proxy noFunction
      | table id => exact simulates_indexTable agree id key
      | _ => exact .throw agree _

theorem simulates_assignTable (agree : c.Agree before.1 before.2) (id : TableId) (key : ScriptValue)
    {item : ScriptValue} (noFunction : item.asFunction? = none) :
    c.Simulates none before (c.host.assignTable c.host.invoke id key item)
      (c.host.assignTable c.host.invoke id (key.retag c.rename) (item.retag c.rename)) Equal := by
  unfold Host.assignTable
  rw [ScriptValue.ofValue?_retag, ScriptValue.kindName_retag]
  split
  next => exact .throw agree _
  next entry _ =>
    have write : c.Simulates none before
        (Bridge.modifyContext fun context => { context with heap := context.heap.set id entry item } :
          Bridge ScriptError Unit)
        (Bridge.modifyContext fun context =>
          { context with heap := context.heap.set id entry (item.retag c.rename) }) Equal :=
      simulates_modifyContext (agree.setHeap (agree.heap.set id entry (.data item noFunction))) rfl rfl rfl
    apply Simulates.context
    dsimp only
    rw [agree.heap.typeOf?_eq, (agree.handed_get id entry).isNil_eq]
    split
    · split
      · exact simulates_assignType agree _ key noFunction
      · exact write
    · exact write

theorem simulates_assign (agree : c.Agree before.1 before.2) (target : ScriptValue) {key item : ScriptValue}
    (noFunctionKey : key.asFunction? = none) (noFunction : item.asFunction? = none) :
    c.Simulates none before (c.host.assign target key item)
      (c.host.assign (target.retag c.rename) (key.retag c.rename) (item.retag c.rename)) Equal := by
  cases target with
  | proxy proxy => exact simulates_assignInstance agree proxy noFunctionKey noFunction
  | table id => exact simulates_assignTable agree id key noFunction
  | _ => exact .throw agree _

theorem simulates_construct (agree : c.Agree before.1 before.2) {function otherFunction : ScriptValue}
    (handed : c.Handed before.1 before.2 function otherFunction) {arguments : List ScriptValue}
    (noFunctions : NoFunctions arguments) :
    c.Simulates none before (c.host.construct function arguments)
      (c.host.construct otherFunction (retagAll c.rename arguments)) c.SameDataAll := by
  have sameTable : otherFunction.asTable? = function.asTable? := by
    cases handed with
    | data function _ => exact function.asTable?_retag
    | function _ => rfl
  simp only [Host.construct, Host.constructBy]
  apply Simulates.context
  rw [sameTable, handed.kindName_eq, funext agree.heap.typeOf?_eq]
  split
  next => exact .throw agree _
  next type _ =>
    apply Simulates.onBinding agree type (.throw agree _)
    intro binding other otherFound bindings
    have constructors := bindings.constructor
    generalize binding.constructor = constructor at *
    generalize other.constructor = otherConstructor at *
    cases constructors with
    | none => exact .throw agree _
    | some same => exact simulates_invoke agree (.made same) noFunctions

/-- Functions that stand for the same member are called, and proxies of delegates do not occur. -/
theorem simulates_call (agree : c.Agree before.1 before.2) {function otherFunction : ScriptValue}
    (handed : c.Handed before.1 before.2 function otherFunction) {arguments : List ScriptValue}
    (noFunctions : NoFunctions arguments) :
    c.Simulates none before (c.host.call function arguments)
      (c.host.call otherFunction (retagAll c.rename arguments)) c.SameDataAll := by
  cases handed with
  | function stands => exact simulates_invoke agree stands noFunctions
  | data function noFunction =>
      cases function with
      | proxy proxy =>
          simp only [Host.call, ScriptValue.retag, Host.callBy]
          apply Simulates.context
          rw [agree.resolve?_eq]
          split
          next delegate resolved =>
            have plain := (agree.plain_of_resolve? resolved).asDelegate?_eq_none
            cases plain
          next => exact .throw agree _
          next => exact .throw agree _
      | table id =>
          simp only [Host.call, ScriptValue.retag, Host.callBy]
          apply Simulates.context
          rw [agree.heap.typeOf?_eq]
          split
          · exact simulates_construct agree (.table id) noFunctions
          · exact .throw agree _
      | function handle => cases noFunction
      | _ => exact .throw agree _

theorem targetName_retag (agree : c.Agree left right) (target : ScriptValue) :
    c.host.targetName right.context (target.retag c.rename) = c.host.targetName left.context target := by
  cases target with
  | table id => simp only [Host.targetName, ScriptValue.retag, agree.heap.typeOf?_eq]
  | _ => rfl

theorem simulates_invokeMember (agree : c.Agree before.1 before.2) {target : ScriptValue}
    (noFunction : target.asFunction? = none) (name : String) {arguments : List ScriptValue}
    (noFunctions : NoFunctions arguments) :
    c.Simulates none before (c.host.invokeMember target name arguments)
      (c.host.invokeMember (target.retag c.rename) name (retagAll c.rename arguments)) c.SameDataAll := by
  unfold Host.invokeMember Host.invokeMemberBy
  have key : (ScriptValue.string name).asFunction? = none := rfl
  apply (simulates_index agree (.data target noFunction) key).bind
  intro function _ after agree _ handed
  dsimp only
  rw [handed.isNil_eq]
  split
  · apply Simulates.context
    rw [targetName_retag agree]
    exact .throw agree _
  · cases target with
    | proxy proxy =>
        have withTarget : NoFunctions (.proxy proxy :: arguments) :=
          List.forall_mem_cons.mpr ⟨rfl, noFunctions⟩
        exact simulates_call agree handed withTarget
    | _ => exact simulates_call agree handed noFunctions

/-- Both sides have the operator of an operand or neither has. -/
theorem Agree.operatorOf? (agree : c.Agree left right) (operand : ScriptValue) (operator : Operator) :
    Option.Rel (SameCallable left.context.callables right.context.callables)
      (Host.operatorOf? left.context operand operator)
      (Host.operatorOf? right.context (operand.retag c.rename) operator) := by
  cases operand with
  | proxy proxy =>
      change Option.Rel _ ((left.context.binding? proxy.type).bind fun binding => binding.operators.get? operator)
        ((right.context.binding? proxy.type).bind fun binding => binding.operators.get? operator)
      rcases agree.binding?_cases proxy.type with ⟨absent, otherAbsent⟩ | ⟨binding, other, found, otherFound, bindings⟩
      · rw [absent, otherAbsent]
        exact .none
      · rw [found, otherFound]
        exact bindings.operators.get? operator
  | _ => exact .none

theorem simulates_operate (agree : c.Agree before.1 before.2) (operator : Operator)
    {first second : ScriptValue}
    (noFunction : first.asFunction? = none) (noFunctionSecond : second.asFunction? = none) :
    c.Simulates none before (c.host.operate operator first second)
      (c.host.operate operator (first.retag c.rename) (second.retag c.rename)) c.SameData := by
  unfold Host.operate Host.operateBy
  apply Simulates.context
  have operators := rel_or (agree.operatorOf? first operator) (agree.operatorOf? second operator)
  dsimp only
  generalize (Host.operatorOf? before.1.context first operator).or
    (Host.operatorOf? before.1.context second operator) = found at *
  generalize (Host.operatorOf? before.2.context (first.retag c.rename) operator).or
    (Host.operatorOf? before.2.context (second.retag c.rename) operator) = otherFound at *
  cases operators with
  | some same =>
      have noFunctions : NoFunctions (if operator.isUnary then [first] else [first, second]) := by
        split
        · exact List.forall_mem_singleton.mpr noFunction
        · exact List.forall_mem_cons.mpr ⟨noFunction, List.forall_mem_singleton.mpr noFunctionSecond⟩
      have operands : retagAll c.rename (if operator.isUnary then [first] else [first, second]) =
          if operator.isUnary then [first.retag c.rename] else [first.retag c.rename, second.retag c.rename] := by
        split <;> rfl
      rw [← operands]
      exact simulates_firstResult agree (.made same) noFunctions
  | none =>
      dsimp only
      split
      · rw [ScriptValue.equal_retag]
        exact .pure agree ⟨rfl, rfl⟩
      · have culprits :
            (if (first.retag c.rename).asProxy?.isSome then first.retag c.rename else second.retag c.rename) =
              (if first.asProxy?.isSome then first else second).retag c.rename := by
          rw [ScriptValue.asProxy?_retag, Option.isSome_map]
          split <;> rfl
        rw [culprits, ScriptValue.asProxy?_retag, Option.map_map, ScriptValue.kindName_retag]
        exact .throw agree _

theorem simulates_text (agree : c.Agree before.1 before.2) {value : ScriptValue}
    (noFunction : value.asFunction? = none) :
    c.Simulates none before (c.host.text value) (c.host.text (value.retag c.rename)) Equal := by
  cases value with
  | proxy proxy =>
      have key : (ScriptValue.string "ToString").asFunction? = none := rfl
      have receiver : NoFunctions [.proxy proxy] := List.forall_mem_singleton.mpr rfl
      apply (simulates_index agree (.data (.proxy proxy) rfl) key).bind
      intro found _ after agree _ handed
      cases handed with
      | function stands =>
          apply (simulates_firstResult agree stands receiver).bind
          intro result _ after agree _ same
          rcases same with ⟨-, rfl⟩
          cases result <;> exact .pure agree rfl
      | data _ noFunctionFound =>
          cases found with
          | function handle => cases noFunctionFound
          | _ => exact .pure agree rfl
  | _ => exact .pure agree rfl

/-- Both sides let go of the same slot. -/
theorem simulates_release {ε : Type} (agree : c.Agree before.1 before.2) (value : ScriptValue) :
    c.Simulates none before (Host.release value : Bridge ε Bool)
      (Host.release (value.retag c.rename)) Equal := by
  simp only [Host.release]
  apply Simulates.context
  cases value with
  | proxy proxy =>
      dsimp only [ScriptValue.retag]
      rw [agree.cache, IdentityCache.owns_retag, Proxy.retag_key, IdentityCache.release?_retag]
      split
      · cases released : before.1.context.cache.release? proxy.key with
        | none => exact .pure agree rfl
        | some result =>
            have later := agree.setCache (agree.consistent.release? released)
              (agree.plainCache.release released)
            apply (simulates_modifyContext later rfl rfl rfl).bind
            intro _ _ after agree _ _
            exact .pure agree rfl
      · exact .pure agree rfl
  | _ => exact .pure agree rfl

theorem simulates_walk (agree : c.Agree before.1 before.2) {current other : ScriptValue}
    (handed : c.Handed before.1 before.2 current other) (segments : List String) :
    c.Simulates none before (c.host.walk current segments) (c.host.walk other segments) c.Handed := by
  induction segments generalizing before current other with
  | nil => exact .pure agree handed
  | cons segment rest ih =>
      have key : (ScriptValue.string segment).asFunction? = none := rfl
      rw [Host.walk, Host.walk, handed.isNil_eq]
      split
      · exact .pure agree .nil
      · exact (simulates_index agree handed key).bind fun _ _ after agree _ handed => ih agree handed

theorem simulates_global (agree : c.Agree before.1 before.2) (path : String) :
    c.Simulates none before (c.host.global path) (c.host.global path) c.Handed := by
  apply Simulates.context
  rw [Context.root, Context.root, agree.namespaces]
  exact simulates_walk agree (.table _) _

end Comparison

end ScriptBridge
