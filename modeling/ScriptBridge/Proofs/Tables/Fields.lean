import ScriptBridge.Proofs.Tables.Cataloged
import ScriptBridge.Proofs.Tables.FirstUse
import ScriptBridge.Proofs.Tables.Overloads

/-!
# Slots of fields

Where a field has a script name for itself, a slot under that name is for the field:
it has the callable that reads or writes the field, or a placeholder that is resolved
to it. What calls such a slot makes the member first, if this is its first use.
-/

namespace ScriptBridge

/-- Scripts see the field under a name that no other field and no property accessor of its type has. -/
structure Field.SeenAs (system : TypeSystem) (name : String) (field : Field) : Prop where
  declared : (name, field) ∈ Catalog.scriptFields system field.owner .all
  varies : Catalog.isConstant field = false
  alone : ∀ other ∈ system.fields field.owner, other.definition.isStatic = field.definition.isStatic →
    system.scriptName field.owner other.definition = name → other = field
  noProperty : ∀ method ∈ system.methods field.owner, method.definition.isSpecial = true →
    ∀ kind, Catalog.accessedProperty? method.definition ≠ some (kind, name)

/-- The member that reads or writes the field. -/
def Field.member (field : Field) (name : String) (kind : MemberKind) : CatalogMember :=
  ⟨name, field.definition.isStatic, kind, .field field⟩

/--
A slot under the name is there for the field: no other field and no property of its type has the name, or one has it
too but the slot leads to the field.
-/
inductive Field.HasSlot (host : Host) (context : Context) (name : String) (kind : MemberKind) (slot : MemberSlot)
    (field : Field) : Prop
  | alone (seen : field.SeenAs host.system name)
  | shared (leads : slot.LeadsTo host context field.owner (field.member name kind).place
      (.ofMember host.system field.owner (field.member name kind)))

def MemberKind.isOfField : MemberKind → Bool
  | .fieldGet | .fieldSet => true
  | _ => false

/-- Slots of fields are shared with properties at most. -/
theorem MemberTable.ofMember_eq {kind other : MemberKind} {isStatic otherStatic : Bool}
    (isField : kind.isOfField = true) (same : MemberTable.ofMember other otherStatic = .ofMember kind isStatic) :
    otherStatic = isStatic ∧ (other.isOfField = true → other = kind) ∧ other ≠ .event ∧ other ≠ .method := by
  cases kind <;> cases isField <;> cases other <;> cases isStatic <;> cases otherStatic <;>
    simp_all [ofMember, MemberKind.isOfField]

theorem Catalog.eq_member_of_mem_fieldMembers {name : String} {field : Field} {listed : CatalogMember}
    (made : listed ∈ fieldMembers name field) :
    listed = field.member name listed.kind ∧ listed.kind.isOfField = true := by
  simp only [fieldMembers, List.mem_cons, List.not_mem_nil, or_false] at made
  rcases made with rfl | rfl
  · exact ⟨rfl, rfl⟩
  · exact ⟨rfl, rfl⟩

namespace Field.SeenAs

variable {system earlier : TypeSystem} {field : Field} {name : String} {kind : MemberKind} {access : MemberAccess}

theorem mem_fields (seen : field.SeenAs system name) : field ∈ system.fields field.owner := by
  rcases List.mem_map.mp seen.declared with ⟨other, kept, same⟩
  obtain rfl := (Prod.mk.inj same).2
  exact (List.mem_filter.mp kept).1

/-- Every walk that takes fields of its visibility lists the field. -/
theorem mem_members (seen : field.SeenAs system name) (isField : kind.isOfField = true)
    (admits : access.admits field.definition.visibility = true) (extensions : Option ExtensionMap) :
    field.member name kind ∈ (Catalog.ofType system field.owner access extensions).members := by
  have listed : (name, field) ∈ Catalog.scriptFields system field.owner access := by
    rcases List.mem_map.mp seen.declared with ⟨other, kept, same⟩
    obtain rfl := (Prod.mk.inj same).2
    rcases List.mem_filter.mp kept with ⟨declared, taken⟩
    refine List.mem_map.mpr ⟨other, List.mem_filter.mpr ⟨declared, ?_⟩, same⟩
    rw [admits, Bool.true_and]
    exact (Bool.and_eq_true_iff.mp taken).2
  have made : field.member name kind ∈ Catalog.fieldMembers name field := by
    cases kind <;> cases isField <;> simp [Catalog.fieldMembers, member]
  refine List.mem_append_left _ (List.mem_append_left _ (List.mem_append_left _ ?_))
  exact List.mem_flatMap.mpr ⟨_, List.mem_filter.mpr ⟨listed, by simp [seen.varies]⟩, made⟩

/-- Nothing else is listed at the places of the field, and that only by walks that take fields of its visibility. -/
theorem eq_member (seen : field.SeenAs system name) (isField : kind.isOfField = true)
    (precedes : earlier.Precedes system) {extensions : Option ExtensionMap} {listed : CatalogMember}
    (present : listed ∈ (Catalog.ofType earlier field.owner access extensions).members)
    (there : listed.place = (field.member name kind).place) :
    listed = field.member name kind ∧ access.admits field.definition.visibility = true := by
  rcases Prod.mk.inj there with ⟨sameTable, sameName⟩
  rcases MemberTable.ofMember_eq isField sameTable with ⟨sameStatic, sameKind, noEvent, noMethod⟩
  simp only [Catalog.ofType, List.mem_append] at present
  rcases present with ((ofField | ofEvent) | ofAccessor) | ofGroup
  · rcases List.mem_flatMap.mp ofField with ⟨entry, kept, made⟩
    rcases List.mem_map.mp (List.mem_filter.mp kept).1 with ⟨other, taken, rfl⟩
    rcases List.mem_filter.mp taken with ⟨declared, admitted⟩
    rcases precedes.field declared with ⟨still, named⟩
    rcases Catalog.eq_member_of_mem_fieldMembers made with ⟨same, accesses⟩
    rw [same] at sameStatic sameName
    obtain rfl : other = field := seen.alone other still sameStatic (named.trans sameName)
    refine ⟨?_, (Bool.and_eq_true_iff.mp admitted).1⟩
    rw [same, sameKind accesses]
    exact congrArg (other.member · kind) sameName
  · rcases List.mem_map.mp ofEvent with ⟨event, -, rfl⟩
    exact absurd rfl noEvent
  · rcases Catalog.exists_role_of_mem_accessors ofAccessor with ⟨method, declared, -, role⟩
    refine absurd (Catalog.accessedProperty?_of_roleOf role) ?_
    rw [sameName]
    exact seen.noProperty method (precedes.mem_methods declared) (Catalog.isSpecial_of_accessor role) _
  · rcases List.mem_map.mp ofGroup with ⟨entry, -, rfl⟩
    exact absurd rfl noMethod

/-- The field is found again for a placeholder that stands for it. -/
theorem pending?_eq {host : Host} (seen : field.SeenAs host.system name) (isField : kind.isOfField = true)
    (admits : access.admits field.definition.visibility = true) (context : Context) :
    host.pending? context ⟨field.owner, kind, name, field.definition.isStatic, access⟩ =
      some (field.member name kind) := by
  have listed := seen.mem_members isField admits (host.extensionsIn context)
  cases found : host.pending? context ⟨field.owner, kind, name, field.definition.isStatic, access⟩ with
  | none =>
      have missed := List.find?_eq_none.mp found _ listed
      simp [member] at missed
  | some other =>
      have place := Host.place_of_pending? found
      exact congrArg some (seen.eq_member isField (.refl _) (List.mem_of_find?_eq_some found) place).1

/-- A slot at a place of the field leads to what reads or writes the field. -/
theorem leadsTo {host : Host} {context : Context} {slot : MemberSlot} (seen : field.SeenAs host.system name)
    (isField : kind.isOfField = true)
    (slotListed : slot.Cataloged host.system context.callables field.owner (field.member name kind).place) :
    slot.LeadsTo host context field.owner (field.member name kind).place
      (.ofMember host.system field.owner (field.member name kind)) := by
  cases slotListed with
  | @made earlier access extensions listed handle precedes present there registered =>
      obtain ⟨rfl, -⟩ := seen.eq_member isField precedes present there
      exact .made registered (Callable.isGenerated_ofMember _ _ _)
  | @waiting earlier access extensions listed handle precedes present there registered =>
      obtain ⟨rfl, admits⟩ := seen.eq_member isField precedes present there
      exact .waiting registered rfl rfl (seen.pending?_eq isField admits context)

end Field.SeenAs

/-- Where slots are from catalogs, the slot that is there for a field leads to what reads or writes the field. -/
theorem Field.HasSlot.leadsTo {host : Host} {context : Context} {name : String} {kind : MemberKind} {slot : MemberSlot}
    {field : Field} (has : field.HasSlot host context name kind slot) (isField : kind.isOfField = true)
    (cataloged : context.Cataloged host.system)
    (found : ∃ binding, context.binding? field.owner = some binding ∧
      binding.slots.get? (field.member name kind).place = some slot) :
    slot.LeadsTo host context field.owner (field.member name kind).place
      (.ofMember host.system field.owner (field.member name kind)) := by
  rcases found with ⟨binding, bound, present⟩
  cases has with
  | alone seen => exact seen.leadsTo isField (cataloged _ _ bound _ (FinMap.mem_entries_of_get? present))
  | shared leads => exact leads

end ScriptBridge
