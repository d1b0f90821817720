import ScriptBridge.Proofs.Realms.Actions
import ScriptBridge.Proofs.Tables.Indexers

/-!
# How indexers are reached

Indexers whose key takes no strings are served by the item accessors of their type, and
the accessor methods of the others are called as methods. An indexer of the first kind
that is declared after one of the second is reached in both ways.
-/

namespace ScriptBridge

namespace Catalog

/--
How a walk over visible or over all members splits the indexers of a type, in every order of declaration. The item
accessors serve exactly the admitted indexers whose key takes no strings. The methods that the type has in the group of
the getters or the setters are the accessors of the admitted properties from the first on whose key takes strings: all
accessors of indexers with such a key, and just these if no other property of the name is declared after one of them.
-/
theorem indexers_split (system : TypeSystem) (type : TypeRef) (access : MemberAccess)
    (extensions : Option ExtensionMap) (declared : (system.definition type).ItemsDeclared)
    (whole : access ≠ .hiddenOnly) :
    let catalog := ofType system type access extensions
    catalog.indexers = (system.definition type).properties.filter (fun property =>
        property.isIndexer && access.admits property.visibility && !hasStringKey system property) ∧
      ∀ (accessor : ItemAccessor) (isStatic : Bool),
        let items := itemProperties system type access accessor isStatic
        let served := items.dropWhile fun property => !hasStringKey system property
        (∃ own, own ⊆ system.methods type ∧ own.map (·.definition) = served.filterMap accessor.of? ∧
          catalog.find? .method accessor.methodName isStatic =
            (group? (own ++ joinedMethods system type access extensions (accessor.methodName, isStatic))).map
              (groupMember accessor.methodName isStatic)) ∧
        served.filter (hasStringKey system) = items.filter (hasStringKey system) ∧
        (served = items.filter (hasStringKey system) ↔
          items.Pairwise fun earlier later => hasStringKey system earlier = true → hasStringKey system later = true) := by
  intro catalog
  refine ⟨?_, fun accessor isStatic => ⟨⟨_, ?_, map_definition_ownMethods declared whole accessor isStatic, ?_⟩,
    filter_dropWhile _ _, dropWhile_eq_filter_iff⟩⟩
  · have visible : access.admits .visible = true := by
      cases access with
      | hiddenOnly => exact absurd rfl whole
      | _ => rfl
    exact if_pos visible
  · intro method own
    have offers : method ∈ offered system type access :=
      (List.mem_filter.mp ((List.dropWhile_sublist _).mem own)).1
    exact mem_methods_of_walked (List.mem_filter.mp offers).1
  · have ordinary : (Operator.ofMethodName? accessor.methodName).isNone = true := by cases accessor <;> rfl
    rw [find?_method, if_pos ordinary, get?_methodGroups]

end Catalog

namespace Realm

/-- A type with an indexer by integers, and after it one by strings, among members of other kinds. -/
def rack : TypeDef :=
  let declared := ((TypeDef.ofClass "Game" "Rack").addMethods [.named "Clear" (.native 0)]).addAutoProperty "Count" .int32
    false (.int32 0)
  let withMore := ((declared.addConstructor (.named "" (.native 0))).addEvent "Changed" .delegate false .null).addOperator
    (.named "op_Addition" (.native 0))
  (withMore.addProperty "Item" .int32 false .visible [.plain "position" .int32] (some (.native 0)) none).addProperty
    "Item" .int32 false .visible [.plain "title" .string] (some (.native 0)) none

/-- A type with the same indexers in the other order. -/
def archive : TypeDef :=
  ((TypeDef.ofClass "Game" "Archive").addProperty "Item" .int32 false .visible [.plain "title" .string]
    (some (.native 0)) none).addProperty "Item" .int32 false .visible [.plain "position" .int32] (some (.native 0)) none

def archiveDeclared : List Action := [.declare rack, .declare archive]

theorem itemsDeclared_rack : rack.ItemsDeclared := by
  refine .addProperty (.addProperty ?_ _ _ _ _ _ _ (by decide) fun _ => rfl) _ _ _ _ _ _ (by decide) fun _ => rfl
  refine .addOperator (.addEvent (.addConstructor (.addAutoProperty (.addMethods (.ofNone rfl rfl) ?_) _ _ _ _) _) _ _ _ _)
    ?_
  · intro method listed accessor
    obtain rfl := List.mem_singleton.mp listed
    cases accessor <;> decide
  · intro accessor
    cases accessor <;> decide

theorem itemsDeclared_archive : archive.ItemsDeclared :=
  ((TypeDef.ItemsDeclared.ofNone rfl rfl).addProperty _ _ _ _ _ _ (by decide) fun _ => rfl).addProperty _ _ _ _ _ _
    (by decide) fun _ => rfl

end Realm

open Realm in
/-- Of the indexers of a rack one is served by the item getter, and the accessor of the other is the group. -/
theorem Catalog.indexers_split_rack :
    let system := (core.actAll archiveDeclared).system
    let items := itemProperties system (.declared 14) .visibleOnly .getter false
    items.length = 2 ∧ ((ofType system (.declared 14) .visibleOnly none).indexers.map (·.indexParameters.head?)) =
        [some (.plain "position" .int32)] ∧
      ∃ own, own.map (·.definition) = (items.filter (hasStringKey system)).filterMap ItemAccessor.getter.of? ∧
        (ofType system (.declared 14) .visibleOnly none).find? .method "get_Item" false =
          (group? (own ++ [])).map (groupMember "get_Item" false) := by
  intro system items
  have declared : (system.definition (.declared 14)).ItemsDeclared := itemsDeclared_rack
  rcases indexers_split system (.declared 14) .visibleOnly none declared (by decide) with ⟨served, groups⟩
  rcases groups .getter false with ⟨⟨own, -, accessors, found⟩, -, exactly⟩
  have ordered : items.Pairwise fun earlier later =>
      hasStringKey system earlier = true → hasStringKey system later = true := by
    decide +kernel
  refine ⟨by decide +kernel, ?_, own, ?_, found⟩
  · rw [served]
    decide +kernel
  · rw [accessors, exactly.mpr ordered]

open Realm in
/-- The indexer of an archive by integers is served by the item getter, and its accessor is in the group as well. -/
theorem Catalog.not_forall_indexers_reached_once :
    ¬∀ (system : TypeSystem) (type : TypeRef) (access : MemberAccess), (system.definition type).ItemsDeclared →
      access ≠ .hiddenOnly → ∀ property ∈ (ofType system type access none).indexers, ∀ accessor method methods,
        ItemAccessor.of? accessor property = some method →
        (methodGroups system type access none).get? (accessor.methodName, property.isStatic) = some methods →
        method ∉ methods.map (·.definition) := by
  intro claim
  let system := (core.actAll archiveDeclared).system
  have reached : (ofType system (.declared 15) .visibleOnly none).indexers.any fun property =>
      property.getter.any fun method =>
        ((methodGroups system (.declared 15) .visibleOnly none).get? ("get_Item", property.isStatic)).any fun methods =>
          (methods.map (·.definition)).contains method := by
    decide +kernel
  rcases List.any_eq_true.mp reached with ⟨property, served, reached⟩
  rcases Option.any_eq_true _ _ |>.mp reached with ⟨method, isGetter, reached⟩
  rcases Option.any_eq_true _ _ |>.mp reached with ⟨methods, grouped, among⟩
  exact claim system (.declared 15) .visibleOnly itemsDeclared_archive (by decide) property served .getter method methods
    isGetter grouped (List.contains_iff_mem.mp among)

end ScriptBridge
