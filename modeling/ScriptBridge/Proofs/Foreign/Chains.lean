import ScriptBridge.Proofs.Foreign.Discreet
import ScriptBridge.Proofs.Natives.Scripts
import ScriptBridge.Proofs.Tables.Wiring

/-!
# Member lookup sees no proxies of other contexts

Along a chain of types, keys and items that resemble each other are read and written in
the same place, and the same functions are called with them. These are functions of
members: the dispatch tables of a wired context hold no others.
-/

namespace ScriptBridge

open Bridge

variable {swap : KeySwap}

namespace EndsAlike

variable {host : Host} {ε α β γ ζ : Type} [BindingFailure ε] {related : α → β → Prop} {final : γ → ζ → Prop}
  {world twin : World} {action : Bridge ε α} {other : Bridge ε β}

/-- What follows starts in a wired context too. -/
theorem bindWired {next : α → Bridge ε γ} {otherNext : β → Bridge ε ζ}
    (first : EndsAlike swap related world (exec action world) (exec other twin)) (kept : host.wiring.KeptBy action)
    (wired : world.context.Wired host.system)
    (second : ∀ value otherValue middle otherMiddle, middle.Resembles swap otherMiddle →
      middle.context.Wired host.system → world.context.AddsNoEmbedder middle.context → related value otherValue →
      EndsAlike swap final middle (exec (next value) middle) (exec (otherNext otherValue) otherMiddle)) :
    EndsAlike swap final world (exec (action >>= next) world) (exec (other >>= otherNext) twin) :=
  first.bind fun value otherValue middle otherMiddle run worlds adds holds =>
    second value otherValue middle otherMiddle worlds (kept.holds_of_ok wired run) adds holds

/-- Steps that do the same from wired contexts in which they are safe, which they stay. -/
theorem foldlM {ι : Type} {safe : Context → ι → Prop} {step : α → ι → Bridge ε α} {otherStep : β → ι → Bridge ε β}
    (persists : ∀ {before after : Context}, before.AddsNoEmbedder after → ∀ item, safe before item → safe after item)
    (kept : ∀ value item, host.wiring.KeptBy (step value item))
    (each : ∀ value otherValue item world twin, world.Resembles swap twin → world.context.Wired host.system →
      safe world.context item → related value otherValue →
      EndsAlike swap related world (exec (step value item) world) (exec (otherStep otherValue item) twin))
    (items : List ι) {value : α} {otherValue : β} (worlds : world.Resembles swap twin)
    (wired : world.context.Wired host.system) (allSafe : ∀ item ∈ items, safe world.context item)
    (holds : related value otherValue) :
    EndsAlike swap related world (exec (items.foldlM step value) world)
      (exec (items.foldlM otherStep otherValue) twin) := by
  induction items generalizing value otherValue world twin with
  | nil => exact .pure worlds holds
  | cons item rest ih =>
      simp only [List.foldlM_cons]
      refine (each value otherValue item world twin worlds wired (allSafe item List.mem_cons_self) holds).bindWired
        (kept value item) wired fun _ _ _ _ worlds wired adds holds => ?_
      have restSafe := fun other listed => persists adds other (allSafe other (List.mem_cons_of_mem item listed))
      exact ih worlds wired restSafe holds

end EndsAlike

namespace Host

variable {host : Host} {invoke : Invoker} {world twin : World} {key keyTwin item itemTwin : ScriptValue}

theorem mirrors_liveValue (proxy : Proxy) : Blind swap (host.liveValue proxy) := by
  refine Mirrors.context fun context other resembles => ?_
  rw [resembles.cache_eq]
  split
  · exact .pure rfl
  · exact .throw _

theorem mirrors_readArray (keys : key.Resembles swap keyTwin) (value : HostValue) (type : TypeRef) :
    Mirrors swap Eq (host.readArray value type key) (host.readArray value type keyTwin) := by
  have lengthKey : keyTwin = .string "Length" ↔ key = .string "Length" := keys.eq_iff_of_noProxy rfl
  simp only [readArray, keys.asInteger?_eq, lengthKey]
  split
  · refine Blind.store fun store => ?_
    split
    · exact .pure _
    · split
      · exact .pure _
      · split
        · exact .bind (blind_push _) fun _ => .pure _
        · exact .throw _
  · exact .pure rfl

theorem mirrors_writeArray (keys : key.Resembles swap keyTwin) (items : item.Resembles swap itemTwin)
    (value : HostValue) (type : TypeRef) :
    Mirrors swap Eq (host.writeArray value type key item) (host.writeArray value type keyTwin itemTwin) := by
  simp only [writeArray, keys.asInteger?_eq]
  split
  · refine (mirrors_fits items _).after fun fits => ?_
    split
    · exact .throw _
    · refine (mirrors_toHost items _).after fun converted => Blind.store fun store => ?_
      split
      · exact .bind (.setStore _) fun _ => .pure _
      · exact .throw _
  · exact .pure rfl

theorem instanceMember?_eq (keys : key.Resembles swap keyTwin) (binding : TypeBinding) :
    instanceMember? binding keyTwin = instanceMember? binding key := by
  cases keys <;> rfl

section Calls

variable (invokes : Invoker.Discreet host swap invoke) (worlds : world.Resembles swap twin)
  (wired : world.context.Wired host.system)

include invokes worlds wired

theorem endsAlike_firstResult {handle : CallableHandle} {arguments twins : List ScriptValue}
    (resemble : ResembleAll swap arguments twins) (discreet : world.context.Discreet swap handle) :
    EndsAlike swap (ScriptValue.Resembles swap) world (exec (firstResult invoke handle arguments) world)
      (exec (firstResult invoke handle twins) twin) := by
  simp only [firstResult, bind_pure_comp]
  exact (invokes.alike resemble worlds wired discreet).map fun _ _ => ResembleAll.headD

theorem endsAlike_readItem {type : TypeRef} {binding : TypeBinding}
    (bound : world.context.binding? type = some binding) (target : ScriptValue) (keys : key.Resembles swap keyTwin) :
    EndsAlike swap (Option.Rel (ScriptValue.Resembles swap)) world (exec (readItem invoke binding target key) world)
      (exec (readItem invoke binding target keyTwin) twin) := by
  simp only [readItem]
  split
  · exact .pure worlds .none
  next getter given =>
    have generated := Context.generated_of_worksUnder ((wired.bindings type binding bound).worksUnder_itemGetter given)
    have passed : ResembleAll swap [target, key] [target, keyTwin] := .cons (.same _) (.cons keys .nil)
    refine (invokes.alike passed worlds wired (.inl generated)).bind
      fun results twins middle otherMiddle _ worlds _ resemble => ?_
    cases resemble with
    | nil => exact .pure worlds .none
    | @cons flag _ _ _ flags rest =>
        cases flags with
        | foreign => exact .pure worlds .none
        | same =>
            cases flag with
            | boolean truth =>
                cases truth with
                | false => exact .pure worlds .none
                | true =>
                    cases rest with
                    | nil => exact .pure worlds .none
                    | cons second _ => exact .pure worlds (.some second)
            | _ => exact .pure worlds .none

theorem endsAlike_writeItem {type : TypeRef} {binding : TypeBinding}
    (bound : world.context.binding? type = some binding) (target : ScriptValue) (keys : key.Resembles swap keyTwin) (items : item.Resembles swap itemTwin) :
    EndsAlike swap Eq world (exec (writeItem invoke binding target key item) world)
      (exec (writeItem invoke binding target keyTwin itemTwin) twin) := by
  simp only [writeItem]
  split
  · exact .pure worlds rfl
  next setter given =>
    have generated := Context.generated_of_worksUnder ((wired.bindings type binding bound).worksUnder_itemSetter given)
    have passed : ResembleAll swap [target, key, item] [target, keyTwin, itemTwin] :=
      .cons (.same _) (.cons keys (.cons items .nil))
    refine (endsAlike_firstResult invokes worlds wired passed (.inl generated)).bind
      fun result other middle otherMiddle _ worlds _ resembles => .pure worlds ?_
    have accepted : other = .boolean true ↔ result = .boolean true := resembles.eq_iff_of_noProxy rfl
    simp only [accepted]

/-- Along the chain of types of an instance, a key and one that resembles it are read in the same place. -/
theorem endsAlike_readAlong (proxy : Proxy) (value : HostValue) (keys : key.Resembles swap keyTwin)
    (chain : List TypeRef) :
    EndsAlike swap (ScriptValue.Resembles swap) world (exec (host.readAlong invoke proxy value key chain) world)
      (exec (host.readAlong invoke proxy value keyTwin chain) twin) := by
  induction chain generalizing world twin with
  | nil => exact .pure worlds (.same _)
  | cons type rest ih =>
      simp only [readAlong, exec_bind_of_ok (exec_context _), worlds.context.bindings_eq, instanceMember?_eq keys]
      cases bound : world.context.binding? type with
      | none => exact ih worlds wired
      | some binding =>
          dsimp only
          cases found : instanceMember? binding key with
          | some member =>
              cases member with
              | method handle => exact .pure worlds (.same _)
              | getter handle =>
                  rcases exists_getter_of_instanceMember? found with ⟨name, slot, present, rfl⟩
                  exact endsAlike_firstResult invokes worlds wired (.refl _) (.inl (wired.generated_slot bound present))
          | none =>
              refine ((mirrors_readArray keys value type) _ _ worlds).bind
                fun element other middle otherMiddle run ends _ same => ?_
              rcases same with rfl
              cases element with
              | some element => exact .pure ends (.same _)
              | none =>
                  -- nothing was read, so the world and with it the binding are those from before
                  rcases eq_of_readArray_none run with rfl
                  dsimp only
                  refine (endsAlike_readItem invokes ends wired bound _ keys).bindWired
                    (keptBy_readItem invokes.keeps _ _ _) wired
                    fun items twins middle otherMiddle worlds wired _ found => ?_
                  cases found with
                  | none => exact ih worlds wired
                  | some values => exact .pure worlds values

/-- Along the chain of types of an instance, what resembles each other is written in the same place. -/
theorem endsAlike_writeAlong (proxy : Proxy) (value : HostValue) (keys : key.Resembles swap keyTwin)
    (items : item.Resembles swap itemTwin) (chain : List TypeRef) :
    EndsAlike swap Eq world (exec (host.writeAlong invoke proxy value key item chain) world)
      (exec (host.writeAlong invoke proxy value keyTwin itemTwin chain) twin) := by
  induction chain generalizing world twin with
  | nil =>
      simp only [writeAlong, noSuchField, keys.keyText_eq]
      exact .throw worlds _
  | cons type rest ih =>
      simp only [writeAlong, exec_bind_of_ok (exec_context _), worlds.context.bindings_eq, keys.asString?_eq]
      cases bound : world.context.binding? type with
      | none => exact ih worlds wired
      | some binding =>
          dsimp only
          split
          next slot found =>
            rcases Option.bind_eq_some_iff.mp found with ⟨name, -, present⟩
            have passed : ResembleAll swap [.proxy proxy, item] [.proxy proxy, itemTwin] :=
              .cons (.same _) (.cons items .nil)
            have generated := wired.generated_slot bound present
            exact (invokes.alike passed worlds wired (.inl generated)).map fun _ _ _ => rfl
          next =>
            refine ((mirrors_writeArray keys items value type) _ _ worlds).bind
              fun stored other middle otherMiddle run ends _ same => ?_
            rcases same with rfl
            cases stored with
            | true => exact .pure ends rfl
            | false =>
                rcases eq_of_writeArray_false run with rfl
                simp only [Bool.false_eq_true, if_false]
                refine (endsAlike_writeItem invokes ends wired bound _ keys items).bindWired
                  (keptBy_writeItem invokes.keeps _ _ _ _) wired
                  fun taken other middle otherMiddle worlds wired _ same => ?_
                rcases same with rfl
                cases taken with
                | true => exact .pure worlds rfl
                | false => exact ih worlds wired

/-- Static members are looked for in the same places. -/
theorem endsAlike_readStaticAlong (name : String) (isFirst : Bool) (chain : List TypeRef) :
    EndsAlike swap (Option.Rel (ScriptValue.Resembles swap)) world
      (exec (readStaticAlong invoke name isFirst chain) world)
      (exec (readStaticAlong invoke name isFirst chain) twin) := by
  induction chain generalizing isFirst with
  | nil => exact .pure worlds .none
  | cons type rest ih =>
      simp only [readStaticAlong, exec_bind_of_ok (exec_context _), worlds.context.bindings_eq]
      cases bound : world.context.binding? type with
      | none => exact ih false
      | some binding =>
          dsimp only
          have entries : ScriptValue.Resembles swap
              (if isFirst = true then .nil else world.context.heap.get binding.classTable (.string name))
              (if isFirst = true then .nil else twin.context.heap.get binding.classTable (.string name)) := by
            split
            · exact .same _
            · exact worlds.context.get _ _
          generalize (if isFirst = true then _ else world.context.heap.get binding.classTable _) = entry at *
          generalize (if isFirst = true then _ else twin.context.heap.get binding.classTable _) = other at *
          rw [entries.isNil_eq]
          split
          · exact .pure worlds (.some entries)
          · split
            next slot _ _ => exact .pure worlds (.some (.same _))
            next slot _ present =>
              simp only [bind_pure_comp]
              have generated := wired.generated_slot bound present
              exact (endsAlike_firstResult invokes worlds wired .nil (.inl generated)).map fun _ _ => .some
            next => exact ih false

end Calls

end Host

end ScriptBridge
