import ScriptBridge.Proofs.Conversion.Choice
import ScriptBridge.Proofs.Related

/-!
# Proxies of other contexts

A context knows nothing of a proxy that another context made but its type: its key means
nothing here. So proxies of other contexts can be given other keys. Values resemble each
other if they are the same but for such keys, and so do tables and contexts. No question
about a value has another answer for one that resembles it.
-/

namespace ScriptBridge

/-- Other keys for proxies that a context did not make. -/
structure KeySwap where
  own : CacheTag
  gives : Proxy → ProxyKey → Prop
  elsewhere : ∀ {key other : ProxyKey} {type : TypeRef} {tag : CacheTag}, gives ⟨key, type, tag⟩ other → tag ≠ own

/-- The second value is the first, or a proxy that has the key that is given to the first. -/
inductive ScriptValue.Resembles (swap : KeySwap) : ScriptValue → ScriptValue → Prop
  | same (value : ScriptValue) : Resembles swap value value
  | foreign {key other : ProxyKey} {type : TypeRef} {tag : CacheTag} (given : swap.gives ⟨key, type, tag⟩ other) :
      Resembles swap (.proxy ⟨key, type, tag⟩) (.proxy ⟨other, type, tag⟩)

/-- Lists of values that resemble each other one by one. -/
abbrev ResembleAll (swap : KeySwap) : List ScriptValue → List ScriptValue → Prop :=
  List.Forall₂ (ScriptValue.Resembles swap)

variable {swap : KeySwap}

namespace ScriptValue.Resembles

variable {value other : ScriptValue}

theorem isNil_eq (resembles : Resembles swap value other) : other.isNil = value.isNil := by
  cases resembles <;> rfl

theorem kindName_eq (resembles : Resembles swap value other) : other.kindName = value.kindName := by
  cases resembles <;> rfl

theorem keyText_eq (resembles : Resembles swap value other) : other.keyText = value.keyText := by
  cases resembles <;> rfl

theorem asString?_eq (resembles : Resembles swap value other) : other.asString? = value.asString? := by
  cases resembles <;> rfl

theorem asInteger?_eq (resembles : Resembles swap value other) : other.asInteger? = value.asInteger? := by
  cases resembles <;> rfl

theorem asTable?_eq (resembles : Resembles swap value other) : other.asTable? = value.asTable? := by
  cases resembles <;> rfl

theorem ofValue?_eq (resembles : Resembles swap value other) : ScriptKey.ofValue? other = ScriptKey.ofValue? value := by
  cases resembles <;> rfl

theorem isProxy_eq (resembles : Resembles swap value other) : other.asProxy?.isSome = value.asProxy?.isSome := by
  cases resembles <;> rfl

/-- Only proxies have others that resemble them. -/
theorem eq_iff_of_noProxy (resembles : Resembles swap value other) {known : ScriptValue}
    (noProxy : known.asProxy? = none) :
    other = known ↔ value = known := by
  cases resembles with
  | same => exact Iff.rfl
  | foreign => constructor <;> (rintro rfl; cases noProxy)

theorem likeness : Likeness (Resembles swap) where
  nil := .same .nil
  table id := .same (.table id)
  isNil_eq := isNil_eq
  asTable?_eq := asTable?_eq

end ScriptValue.Resembles

namespace ResembleAll

variable {values others : List ScriptValue}

theorem refl (values : List ScriptValue) : ResembleAll swap values values :=
  List.forall₂_same.mpr fun value _ => .same value

theorem getD (resemble : ResembleAll swap values others) (position : Nat) :
    (values.getD position .nil).Resembles swap (others.getD position .nil) := by
  induction resemble generalizing position with
  | nil => exact .same .nil
  | cons first _ ih =>
      cases position with
      | zero => exact first
      | succ position => exact ih position

theorem headD (resemble : ResembleAll swap values others) :
    (values.headD .nil).Resembles swap (others.headD .nil) := by
  cases resemble with
  | nil => exact .same .nil
  | cons first _ => exact first

theorem tail (resemble : ResembleAll swap values others) : ResembleAll swap values.tail others.tail := by
  cases resemble with
  | nil => exact .nil
  | cons _ rest => exact rest

theorem isEmpty_eq (resemble : ResembleAll swap values others) : others.isEmpty = values.isEmpty := by
  cases resemble <;> rfl

end ResembleAll

/-- The first context is the own one, and the second is the same but for values in tables that resemble each other. -/
structure Context.Resembles (swap : KeySwap) (context other : Context) : Prop where
  tag : context.cache.tag = swap.own
  heap : TableHeap.Paired (ScriptValue.Resembles swap) context.heap other.heap
  rest : other = { context with heap := other.heap }

namespace Context.Resembles

variable {system : TypeSystem} {context other : Context} {value twin : ScriptValue}

theorem cache_eq (resembles : Resembles swap context other) : other.cache = context.cache := by rw [resembles.rest]

theorem bindings_eq (resembles : Resembles swap context other) (type : TypeRef) :
    other.binding? type = context.binding? type := by
  rw [resembles.rest]
  rfl

theorem callable?_eq (resembles : Resembles swap context other) (handle : CallableHandle) :
    other.callable? handle = context.callable? handle := by
  rw [resembles.rest]
  rfl

theorem lookupChain_eq (resembles : Resembles swap context other) (type : TypeRef) :
    other.lookupChain system type = context.lookupChain system type := by
  rw [resembles.rest]
  rfl

theorem typeOf?_eq (resembles : Resembles swap context other) (id : TableId) :
    other.heap.typeOf? id = context.heap.typeOf? id :=
  resembles.heap.typeOf?_eq id

/-- What is changed outside of the tables is changed alike. -/
theorem change (resembles : Resembles swap context other) {change : Context → Context}
    (commutes : ∀ heap, change { context with heap := heap } = { change context with heap := heap })
    (tag : (change context).cache.tag = context.cache.tag) : (change context).Resembles swap (change other) := by
  have same : change other = { change context with heap := other.heap } :=
    (congrArg change resembles.rest).trans (commutes other.heap)
  have heapStays : (change context).heap = context.heap := by
    have itself : change context = { change context with heap := context.heap } := commutes context.heap
    rw [itself]
  have otherStays : (change other).heap = other.heap := by rw [same]
  refine ⟨tag.trans resembles.tag, ?_, otherStays ▸ same⟩
  rw [heapStays, otherStays]
  exact resembles.heap

/-- What is changed in the tables is changed alike. -/
theorem setHeap (resembles : Resembles swap context other) {heap otherHeap : TableHeap}
    (heaps : TableHeap.Paired (ScriptValue.Resembles swap) heap otherHeap) :
    { context with heap := heap }.Resembles swap { other with heap := otherHeap } :=
  ⟨resembles.tag, heaps, congrArg (fun changed : Context => { changed with heap := otherHeap }) resembles.rest⟩

theorem get (resembles : Resembles swap context other) (id : TableId) (key : ScriptKey) :
    (context.heap.get id key).Resembles swap (other.heap.get id key) :=
  resembles.heap.get ScriptValue.Resembles.likeness id key

section Foreign

variable {key : ProxyKey} {type : TypeRef} {tag : CacheTag} (elsewhere : tag ≠ swap.own)

include elsewhere

/-- A proxy that was made elsewhere stands for nothing here. -/
theorem resolve?_foreign (resembles : Resembles swap context other) : context.cache.resolve? ⟨key, type, tag⟩ = none :=
  if_neg (resembles.tag ▸ elsewhere)

theorem owns_foreign (resembles : Resembles swap context other) : context.cache.owns ⟨key, type, tag⟩ = false := by
  rw [IdentityCache.owns, resembles.resolve?_foreign elsewhere]
  rfl

theorem isReleased_foreign (resembles : Resembles swap context other) :
    context.cache.isReleased ⟨key, type, tag⟩ = false := by
  have different : tag ≠ context.cache.tag := resembles.tag ▸ elsewhere
  simp [IdentityCache.isReleased, different]

end Foreign

theorem compatibility (resembles : Resembles swap context other) (values : value.Resembles swap twin) (type : TypeRef) :
    other.compatibility system twin type = context.compatibility system value type := by
  cases values with
  | same =>
      cases value with
      | proxy proxy => simp only [Context.compatibility, objectCompatibility, proxyCompatibility, resembles.cache_eq]
      | table id => simp only [Context.compatibility, objectCompatibility, resembles.typeOf?_eq]
      | _ => rfl
  | foreign given =>
      have elsewhere := swap.elsewhere given
      simp only [Context.compatibility, objectCompatibility, proxyCompatibility, resembles.cache_eq,
        resembles.isReleased_foreign elsewhere, resembles.owns_foreign elsewhere]

theorem fits (resembles : Resembles swap context other) (values : value.Resembles swap twin) (type : TypeRef) :
    other.fits system twin type = context.fits system value type := by
  rw [Context.fits, Context.fits, resembles.compatibility values]

theorem toHost (resembles : Resembles swap context other) (values : value.Resembles swap twin) (type : TypeRef) :
    other.toHost system twin type = context.toHost system value type := by
  cases values with
  | same =>
      cases value with
      | proxy proxy => simp only [Context.toHost, resembles.cache_eq]
      | table id => simp only [Context.toHost, resembles.typeOf?_eq]
      | _ => rfl
  | foreign given =>
      have elsewhere := swap.elsewhere given
      simp only [Context.toHost, resembles.cache_eq, resembles.isReleased_foreign elsewhere,
        resembles.resolve?_foreign elsewhere]

theorem choose? (resembles : Resembles swap context other) (group : OverloadGroup) {arguments twins : List ScriptValue}
    (resemble : ResembleAll swap arguments twins) :
    other.choose? system group twins = context.choose? system group arguments :=
  choose?_congr (resemble.imp fun _ _ => resembles.compatibility) group

end Context.Resembles

end ScriptBridge
