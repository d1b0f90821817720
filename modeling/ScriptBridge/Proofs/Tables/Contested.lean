import ScriptBridge.Proofs.Tables.Continuing
import ScriptBridge.Proofs.Tables.FirstUse
import ScriptBridge.Proofs.Tables.Groups

/-!
# Contested slots

Several members of one catalog may have one place: a field and a property, an event and a
method, two fields or two accessors of one name. Slots are written in the order of the
catalog, so the last contender takes the place. Where members are made with their type, that
one is made. Where they are made at their first use, the placeholder of the last contender
is resolved to the first contender of its kind. Both are the same member unless there is
another contender of that kind, and there is never another method group.
-/

namespace ScriptBridge

/-- Of items and values that go along with each other, the last ones of a kind do so too. -/
theorem rel_getLast?_filter {α β : Type} {related : α → β → Prop} {items : List α} {values : List β}
    (isItem : α → Bool) (isValue : β → Bool) (all : List.Forall₂ related items values)
    (alike : ∀ item value, related item value → isItem item = isValue value) :
    Option.Rel related (items.filter isItem).getLast? (values.filter isValue).getLast? := by
  have filtered : List.Forall₂ related (items.filter isItem) (values.filter isValue) :=
    List.rel_filter (fun _ _ holds => iff_of_eq (congrArg (· = true) (alike _ _ holds))) all
  rw [List.getLast?_eq_head?_reverse, List.getLast?_eq_head?_reverse]
  have reversed := List.rel_reverse filtered
  generalize (items.filter isItem).reverse = left, (values.filter isValue).reverse = right at reversed
  cases reversed with
  | nil => exact .none
  | cons last => exact .some last

/-- Members of one kind have one place exactly if they have one name and one staticness. -/
theorem CatalogMember.place_eq_iff {member other : CatalogMember} (sameKind : member.kind = other.kind) :
    member.place = other.place ↔ member.isStatic = other.isStatic ∧ member.name = other.name := by
  rw [place, place, Prod.mk.injEq, sameKind]
  refine and_congr_left' ?_
  cases other.kind <;> cases member.isStatic <;> cases other.isStatic <;> decide

namespace Catalog

/-- The members that compete for a place, in the order in which their slots are written. -/
def contenders (catalog : Catalog) (place : MemberTable × String) : List CatalogMember :=
  catalog.members.filter fun member => member.place = place

/-- The contender that takes a place: the last one. -/
def winner? (catalog : Catalog) (place : MemberTable × String) : Option CatalogMember :=
  (catalog.contenders place).getLast?

/-- The contender that is made when the placeholder of a member is used: the first one of its kind. -/
def standIn? (catalog : Catalog) (member : CatalogMember) : Option CatalogMember :=
  (catalog.contenders member.place).find? fun other => other.kind = member.kind

variable {catalog : Catalog} {place : MemberTable × String} {member other : CatalogMember}

theorem mem_contenders : member ∈ catalog.contenders place ↔ member ∈ catalog.members ∧ member.place = place := by
  rw [contenders, List.mem_filter, decide_eq_true_eq]

theorem mem_contenders_of_winner? (wins : catalog.winner? place = some member) : member ∈ catalog.contenders place :=
  List.mem_of_getLast? wins

/-- Looking a member up by its kind, name and staticness finds the first contender of its kind. -/
theorem find?_eq_standIn? (catalog : Catalog) (member : CatalogMember) :
    catalog.find? member.kind member.name member.isStatic = catalog.standIn? member := by
  rw [standIn?, contenders, List.find?_filter]
  refine congrArg (List.find? · catalog.members) (funext fun other => ?_)
  rw [Bool.eq_iff_iff]
  simp only [Bool.and_eq_true, decide_eq_true_eq, beq_iff_eq]
  constructor
  · rintro ⟨⟨kind, isStatic⟩, name⟩
    exact ⟨(CatalogMember.place_eq_iff kind).mpr ⟨isStatic, name⟩, kind⟩
  · rintro ⟨there, kind⟩
    rcases (CatalogMember.place_eq_iff kind).mp there with ⟨isStatic, name⟩
    exact ⟨⟨kind, isStatic⟩, name⟩

/-- A listed member has a stand-in, which has its place and its kind. -/
theorem exists_standIn? (listed : member ∈ catalog.members) :
    ∃ first, catalog.standIn? member = some first ∧ first ∈ catalog.contenders member.place ∧
      first.kind = member.kind := by
  have present : (catalog.standIn? member).isSome :=
    List.find?_isSome.mpr ⟨member, mem_contenders.mpr ⟨listed, rfl⟩, decide_eq_true rfl⟩
  rcases Option.isSome_iff_exists.mp present with ⟨first, found⟩
  have sameKind := List.find?_some found
  rw [decide_eq_true_eq] at sameKind
  exact ⟨first, found, List.mem_of_find?_eq_some found, sameKind⟩

/-- Two method groups of one catalog never compete for a place. -/
theorem eq_of_method_of_place {system : TypeSystem} {type : TypeRef} {access : MemberAccess}
    {extensions : Option ExtensionMap} (listed : member ∈ (ofType system type access extensions).members)
    (listedToo : other ∈ (ofType system type access extensions).members) (isMethod : member.kind = .method)
    (sameKind : other.kind = member.kind) (there : other.place = member.place) : other = member := by
  rcases members_eq system type access extensions with ⟨others, members, noMethod⟩
  rw [members] at listed listedToo
  have grouped := eq_groupMember_of_mem ((List.mem_append.mp listed).resolve_left fun early =>
    noMethod member early isMethod)
  have groupedToo := eq_groupMember_of_mem ((List.mem_append.mp listedToo).resolve_left fun early =>
    noMethod other early (sameKind.trans isMethod))
  rcases (CatalogMember.place_eq_iff sameKind).mp there with ⟨sameStatic, sameName⟩
  rw [groupedToo.2, grouped.2, sameStatic, sameName]

end Catalog

/-- The slot at a place of a type is bound to a callable that wraps the member. -/
def Context.Wraps (system : TypeSystem) (context : Context) (type : TypeRef) (place : MemberTable × String)
    (member : CatalogMember) : Prop :=
  ∃ binding handle, context.binding? type = some binding ∧ binding.slots.get? place = some (.bound handle) ∧
    Registered context.callables handle (.ofMember system type member)

theorem Context.Wraps.ofMember_eq {system : TypeSystem} {context : Context} {type : TypeRef}
    {place : MemberTable × String} {member other : CatalogMember} (wraps : context.Wraps system type place member)
    (wrapsToo : context.Wraps system type place other) :
    Callable.ofMember system type member = .ofMember system type other := by
  rcases wraps with ⟨binding, handle, bound, found, registered⟩
  rcases wrapsToo with ⟨bindingToo, handleToo, boundToo, foundToo, registeredToo⟩
  obtain rfl := Option.some.inj (bound.symm.trans boundToo)
  obtain rfl := MemberSlot.bound.inj (Option.some.inj (found.symm.trans foundToo))
  exact Option.some.inj (registered.symm.trans registeredToo)

namespace Host

open Bridge

variable {host : Host} {type : TypeRef} {access : MemberAccess} {mode : BindingMode} {place : MemberTable × String}
  {world after : World} {last : CatalogMember}

/--
A placeholder is at a place of a type, and resolving it makes a wrapper of the member and puts that into its slot. It
fails only where the context can take no more callables.
-/
def Defers (host : Host) (world : World) (type : TypeRef) (place : MemberTable × String) (member : CatalogMember) :
    Prop :=
  ∃ binding stub pending, world.context.binding? type = some binding ∧
    binding.slots.get? place = some (.unbound stub) ∧ Registered world.context.callables stub (.placeholder pending) ∧
    ((∃ handle resolved, exec (host.resolveMember pending) world = (.ok handle, resolved) ∧
        resolved.context.Wraps host.system type place member) ∨
      UInt32.size ≤ world.context.callables.size ∧
        exec (host.resolveMember pending) world = (.error (.ofBindError .callableLimit), host.withExtensions world))

/-- Of the contenders for a place, the last one has its first callable in the slot there. -/
theorem Makes.slot_of_winner {extensions : Option ExtensionMap} {filling : Filling} {callables : Array Callable}
    (makes : host.Makes type access mode (.ofType host.system type access extensions) filling callables)
    (wins : (Catalog.ofType host.system type access extensions).winner? place = some last)
    (slots : FinMap (MemberTable × String) MemberSlot) :
    ∃ slot, (slots.insertAll filling.slots).get? place = some slot ∧ slot.isBound = (mode == .eager) ∧
      Registered callables slot.handle (host.initialCallable type access mode last) := by
  have related : Option.Rel (fun member made => host.MakesSlot type access mode member made callables)
      ((Catalog.ofType host.system type access extensions).winner? place)
      (filling.slots.filter fun made => made.1 = place).getLast? :=
    rel_getLast?_filter _ _ makes.slots fun member made holds => by rw [holds.1]
  rw [wins] at related
  rw [FinMap.get?_insertAll]
  cases written : (filling.slots.filter fun made => decide (made.1 = place)).getLast? with
  | none =>
      rw [written] at related
      cases related
  | some made =>
      rw [written] at related
      cases related with
      | some made => exact ⟨_, rfl, made.2.1, made.2.2⟩

/-- When members have been installed, the last contender for a place has its first callable in the slot there. -/
theorem slot_of_installMembers {bind : Binder}
    (run : exec (host.installMembers bind type access mode) world = (.ok (), after))
    (wins : (Catalog.ofType host.system type access (host.extensionsIn world.context)).winner? place = some last) :
    ∃ binding slot, after.context.binding? type = some binding ∧ binding.slots.get? place = some slot ∧
      slot.isBound = (mode == .eager) ∧
      Registered after.context.callables slot.handle (host.initialCallable type access mode last) := by
  rcases filled_of_installMembers run with ⟨_, middle, -, -, filled⟩
  have isBound : middle.context.isBound type = true := by
    cases filled with
    | filled _ bound => exact bound
  rcases Option.isSome_iff_exists.mp isBound with ⟨binding, bound⟩
  rcases binding?_of_filled bound filled with ⟨filling, boundAfter, makes⟩
  rcases makes.slot_of_winner wins binding.slots with ⟨slot, found, waits, registered⟩
  exact ⟨_, slot, boundAfter, found, waits, registered⟩

/-- Where members are made with their type, the last contender for a place is wrapped by the slot there. -/
theorem wraps_of_installMembers {bind : Binder}
    (run : exec (host.installMembers bind type access .eager) world = (.ok (), after))
    (wins : (Catalog.ofType host.system type access (host.extensionsIn world.context)).winner? place = some last) :
    after.context.Wraps host.system type place last := by
  rcases slot_of_installMembers run wins with ⟨binding, slot, bound, found, made, registered⟩
  cases slot with
  | bound handle => exact ⟨binding, handle, bound, found, registered⟩
  | unbound handle => cases made

/-- Where members are made at their first use, the placeholder at a place stands for the last contender's stand-in. -/
theorem defers_of_installMembers {depth : Nat} {first : CatalogMember}
    (run : exec (host.installMembers (host.bindWithin depth) type access .lazy) world = (.ok (), after))
    (wins : (Catalog.ofType host.system type access (host.extensionsIn world.context)).winner? place = some last)
    (standsIn : (Catalog.ofType host.system type access (host.extensionsIn world.context)).standIn? last = some first) :
    host.Defers after type place first := by
  rcases slot_of_installMembers run wins with ⟨binding, slot, bound, found, made, registered⟩
  have unchanged := extensionsIn_eq_of_bindSteps
    ((binds_installMembers (binds_bindWithin depth) type access .lazy).chain run)
  have there : last.place = place := (Catalog.mem_contenders.mp (Catalog.mem_contenders_of_winner? wins)).2
  cases slot with
  | bound handle => cases made
  | unbound stub =>
      have waits : ∀ handle, binding.slot? (.ofMember last.kind last.isStatic) last.name ≠ some (.bound handle) := by
        intro handle bound
        rw [TypeBinding.slot?, show (_, _) = place from there, found] at bound
        cases bound
      have pending : host.pending? after.context ⟨type, last.kind, last.name, last.isStatic, access⟩ = some first := by
        rw [pending?, unchanged, Catalog.find?_eq_standIn?, standsIn]
      refine ⟨binding, stub, _, bound, found, registered, ?_⟩
      rcases exec_resolveMember_of_waiting bound waits pending with
        ⟨handle, made, resolved, registeredOnly, wrapped⟩ | ⟨failed, full⟩
      · have boundStill : made.context.binding? type = some binding := by
          rw [Context.binding?, registeredOnly.bindings_eq, host.bindings_withExtensions]
          exact bound
        refine .inl ⟨handle, _, resolved, _, handle, binding?_settled boundStill handle, ?_, ?_⟩
        · rw [← there]
          exact FinMap.get?_insert_self _ _ _
        · exact (callable?_settled _ handle handle made).trans wrapped
      · exact .inr ⟨full, failed⟩

/-- What a placeholder is resolved to is determined, as long as the context can take one more callable. -/
theorem Defers.ofMember_eq {member other : CatalogMember} (defers : host.Defers world type place member)
    (defersToo : host.Defers world type place other) (room : world.context.callables.size < UInt32.size) :
    Callable.ofMember host.system type member = .ofMember host.system type other := by
  rcases defers with ⟨binding, stub, pending, bound, found, registered, resolution⟩
  rcases defersToo with ⟨bindingToo, stubToo, pendingToo, boundToo, foundToo, registeredToo, resolutionToo⟩
  obtain rfl := Option.some.inj (bound.symm.trans boundToo)
  obtain rfl := MemberSlot.unbound.inj (Option.some.inj (found.symm.trans foundToo))
  obtain rfl := Callable.placeholder.inj (Option.some.inj (registered.symm.trans registeredToo))
  rcases resolution with ⟨handle, resolved, run, wraps⟩ | ⟨full, -⟩
  · rcases resolutionToo with ⟨handleToo, resolvedToo, runToo, wrapsToo⟩ | ⟨full, -⟩
    · obtain rfl := (Prod.mk.inj (run.symm.trans runToo)).2
      exact wraps.ofMember_eq wrapsToo
    · omega
  · omega

end Host

end ScriptBridge
