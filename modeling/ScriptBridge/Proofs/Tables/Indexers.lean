import ScriptBridge.Proofs.Tables.Conventions
import ScriptBridge.Proofs.Tables.Groups

/-!
# Indexers between method groups and item accessors

An indexer is declared as a property with accessor methods. A walk leaves the indexers
whose key takes no strings to the item accessors of the type, and has their accessor
methods in a group only where a group of the name is open already: after the accessor
of an indexer whose key takes strings.
-/

namespace ScriptBridge

/-- The two accessors that an indexer can have. -/
inductive ItemAccessor where
  | getter
  | setter
deriving DecidableEq

namespace ItemAccessor

def methodName : ItemAccessor → String
  | .getter => "get_Item"
  | .setter => "set_Item"

/-- The accessor of a property. -/
def of? : ItemAccessor → PropertyDef → Option MethodDef
  | .getter, property => property.getter
  | .setter, property => property.setter

/-- How many parameters the accessor has after those of the index. -/
def extraCount : ItemAccessor → Nat
  | .getter => 0
  | .setter => 1

/-- The method is the accessor that declaring the property makes. -/
structure Makes (accessor : ItemAccessor) (property : PropertyDef) (method : MethodDef) : Prop where
  name : method.name = accessor.methodName
  isStatic : method.isStatic = property.isStatic
  isSpecial : method.isSpecial = true
  visibility : method.visibility = property.visibility
  generics : method.generics = []
  parameters : ∃ others, method.parameters = property.indexParameters ++ others ∧ others.length = accessor.extraCount

end ItemAccessor

/--
The accessors of items are declared with their properties: no other methods have their names, and every indexer has
one key and the common name of indexers.
-/
structure TypeDef.ItemsDeclared (definition : TypeDef) : Prop where
  methods : ∀ accessor : ItemAccessor, definition.methods.filter (fun method => method.name = accessor.methodName) =
    (definition.properties.filter fun property => property.name = "Item").filterMap accessor.of?
  made : ∀ accessor : ItemAccessor, ∀ property ∈ definition.properties, property.name = "Item" →
    ∀ method, accessor.of? property = some method → accessor.Makes property method
  named : ∀ property ∈ definition.properties, property.isIndexer = true → property.name = "Item"
  single : ∀ property ∈ definition.properties, property.indexParameters.length ≤ 1

namespace ItemAccessor.Makes

variable {system : TypeSystem} {accessor : ItemAccessor} {property : PropertyDef} {method : MethodDef}

theorem isSupported (makes : accessor.Makes property method) : system.isSupported method = true := by
  simp [TypeSystem.isSupported, MethodDef.isGeneric, makes.generics]

/-- What is left of the names of item accessors after the starts of accessor names. -/
theorem startings : Text.after? "get_" "get_Item" = some "Item" ∧ Text.after? "get_" "set_Item" = none ∧
    Text.after? "set_" "set_Item" = some "Item" := by
  decide

/-- The accessor of an indexer opens a group if the key takes strings; that of an ordinary property opens none. -/
theorem roleOf_eq_grouped_iff (makes : accessor.Makes property method) (single : property.indexParameters.length ≤ 1) :
    Catalog.roleOf system method = .grouped ↔ Catalog.hasStringKey system property = true := by
  have noEvent : (Text.opens "add_" method.name || Text.opens "remove_" method.name) = false := by
    rw [makes.name]
    cases accessor <;> decide
  have noOperator : Text.opens "op_" method.name = false := by
    rw [makes.name]
    cases accessor <;> decide
  have noConstructor : (method.name == ".ctor") = false := by
    rw [makes.name]
    cases accessor <;> decide
  rw [Catalog.roleOf, if_pos makes.isSpecial, noEvent, noOperator, noConstructor]
  rcases makes.parameters with ⟨others, parameters, count⟩
  rcases indices : property.indexParameters with _ | ⟨index, _ | ⟨second, rest⟩⟩
  · -- An ordinary property is read and written under its own name.
    rw [indices, List.nil_append] at parameters
    rw [Catalog.hasStringKey, indices, Catalog.isKeyedItemAccessor, Catalog.accessedProperty?, makes.name, parameters,
      count]
    cases accessor <;> simp [methodName, extraCount, startings]
  · rw [indices, List.singleton_append] at parameters
    rw [Catalog.hasStringKey, indices, Catalog.isKeyedItemAccessor, Catalog.accessedProperty?, makes.name, parameters,
      List.length_cons, count]
    cases takes : Catalog.acceptsString system index.type <;> cases accessor <;>
      simp [methodName, extraCount, startings, takes]
  · rw [indices, List.length_cons, List.length_cons] at single
    omega

end ItemAccessor.Makes

namespace TypeDef.ItemsDeclared

variable {definition : TypeDef}

theorem after?_of_append_eq {accessor : ItemAccessor} {start name : String}
    (same : start ++ name = accessor.methodName) : Text.after? start accessor.methodName = some name := by
  rw [← same, Text.after?_append]

theorem get_append_eq_iff {accessor : ItemAccessor} {name : String} :
    "get_" ++ name = accessor.methodName ↔ accessor = .getter ∧ name = "Item" := by
  constructor
  · intro same
    have rest := after?_of_append_eq same
    cases accessor with
    | getter => exact ⟨rfl, (Option.some.inj (rest.symm.trans ItemAccessor.Makes.startings.1))⟩
    | setter => cases rest.symm.trans ItemAccessor.Makes.startings.2.1
  · rintro ⟨rfl, rfl⟩
    rfl

theorem set_append_eq_iff {accessor : ItemAccessor} {name : String} :
    "set_" ++ name = accessor.methodName ↔ accessor = .setter ∧ name = "Item" := by
  constructor
  · intro same
    have rest := after?_of_append_eq same
    cases accessor with
    | getter =>
        have none : Text.after? "set_" "get_Item" = none := by decide
        cases rest.symm.trans none
    | setter => exact ⟨rfl, (Option.some.inj (rest.symm.trans ItemAccessor.Makes.startings.2.2))⟩
  · rintro ⟨rfl, rfl⟩
    rfl

theorem ofNone (noMethods : definition.methods = []) (noProperties : definition.properties = []) :
    definition.ItemsDeclared where
  methods := by simp [noMethods, noProperties]
  made := by simp [noProperties]
  named := by simp [noProperties]
  single := by simp [noProperties]

/-- Only the methods and the properties of a type matter. -/
theorem of_eq {other : TypeDef} (declared : definition.ItemsDeclared) (methods : other.methods = definition.methods)
    (properties : other.properties = definition.properties) : other.ItemsDeclared where
  methods := by rw [methods, properties]; exact declared.methods
  made := by rw [properties]; exact declared.made
  named := by rw [properties]; exact declared.named
  single := by rw [properties]; exact declared.single

theorem addField (declared : definition.ItemsDeclared) (field : FieldDef) : (definition.addField field).ItemsDeclared :=
  ⟨declared.methods, declared.made, declared.named, declared.single⟩

theorem addMethods (declared : definition.ItemsDeclared) {methods : List MethodDef}
    (others : ∀ method ∈ methods, ∀ accessor : ItemAccessor, method.name ≠ accessor.methodName) :
    (definition.addMethods methods).ItemsDeclared where
  methods accessor := by
    rw [TypeDef.addMethods, List.filter_append, declared.methods accessor,
      List.filter_eq_nil_iff.mpr fun method added same => others method added accessor (of_decide_eq_true same),
      List.append_nil]
  made := declared.made
  named := declared.named
  single := declared.single

theorem addOperator (declared : definition.ItemsDeclared) {operator : MethodDef}
    (other : ∀ accessor : ItemAccessor, operator.name ≠ accessor.methodName) :
    (definition.addOperator operator).ItemsDeclared :=
  declared.addMethods fun method added => by rw [List.mem_singleton.mp added]; exact other

theorem addEvent (declared : definition.ItemsDeclared) (name : String) (handlerType : TypeRef) (isStatic : Bool)
    (initial : HostValue) : (definition.addEvent name handlerType isStatic initial).ItemsDeclared := by
  have others (start : String) (noReader : Text.after? start "get_Item" = none)
      (noWriter : Text.after? start "set_Item" = none) (accessor : ItemAccessor) :
      start ++ name ≠ accessor.methodName := by
    intro same
    have rest := after?_of_append_eq same
    cases accessor with
    | getter => cases rest.symm.trans noReader
    | setter => cases rest.symm.trans noWriter
  have same : ((definition.addEvent name handlerType isStatic initial).methods,
      (definition.addEvent name handlerType isStatic initial).properties) =
      ((definition.addMethods _).methods, definition.properties) := rfl
  refine .of_eq (declared.addMethods fun method added => ?_) (Prod.mk.inj same).1 (Prod.mk.inj same).2
  simp only [List.mem_cons, List.not_mem_nil, or_false] at added
  rcases added with rfl | rfl
  · exact others "add_" (by decide) (by decide)
  · exact others "remove_" (by decide) (by decide)

/-- Adding a property keeps it so, if only properties of the common name of indexers have a key, and no more than one. -/
theorem addProperty (declared : definition.ItemsDeclared) (name : String) (type : TypeRef) (isStatic : Bool)
    (visibility : Visibility) {indexParameters : List Parameter} (getter setter : Option MethodBody)
    (single : indexParameters.length ≤ 1) (named : indexParameters ≠ [] → name = "Item") :
    (definition.addProperty name type isStatic visibility indexParameters getter setter).ItemsDeclared where
  methods accessor := by
    simp only [TypeDef.addProperty, TypeDef.addMethods, List.filter_append, List.filterMap_append,
      declared.methods accessor]
    congr 1
    -- The two accessors are told apart by how their names start.
    by_cases isItem : name = "Item"
    · subst isItem
      cases accessor <;> cases getter <;> cases setter <;>
        simp [MethodDef.named, ItemAccessor.of?, ItemAccessor.methodName, List.filterMap_cons]
    · cases getter <;> cases setter <;>
        simp [MethodDef.named, get_append_eq_iff, set_append_eq_iff, isItem]
  made accessor property listed isItem method made := by
    rcases List.mem_append.mp listed with known | added
    · exact declared.made accessor property known isItem method made
    · obtain rfl := List.mem_singleton.mp added
      obtain rfl : name = "Item" := isItem
      cases accessor with
      | getter =>
          rcases Option.map_eq_some_iff.mp made with ⟨body, -, rfl⟩
          exact ⟨rfl, rfl, rfl, rfl, rfl, [], (List.append_nil _).symm, rfl⟩
      | setter =>
          rcases Option.map_eq_some_iff.mp made with ⟨body, -, rfl⟩
          exact ⟨rfl, rfl, rfl, rfl, rfl, [_], rfl, rfl⟩
  named property listed indexer := by
    rcases List.mem_append.mp listed with known | added
    · exact declared.named property known indexer
    · obtain rfl := List.mem_singleton.mp added
      exact named (by simpa [PropertyDef.isIndexer] using indexer)
  single property listed := by
    rcases List.mem_append.mp listed with known | added
    · exact declared.single property known
    · obtain rfl := List.mem_singleton.mp added
      exact single

theorem addAutoProperty (declared : definition.ItemsDeclared) (name : String) (type : TypeRef) (isStatic : Bool)
    (initial : HostValue) : (definition.addAutoProperty name type isStatic initial).ItemsDeclared :=
  (declared.addField _).addProperty _ _ _ _ _ _ (Nat.zero_le _) fun keyed => absurd rfl keyed

theorem addConstructor (declared : definition.ItemsDeclared) (constructor : MethodDef) :
    (definition.addConstructor constructor).ItemsDeclared :=
  declared.of_eq rfl rfl

end TypeDef.ItemsDeclared

/-- Taking the accessors after the first properties are dropped, and dropping the first accessors, is the same. -/
theorem ItemAccessor.dropWhile_filterMap {α β : Type} {accessor : α → Option β} (dropped : β → Bool)
    {skipped : α → Bool} {items : List α}
    (same : ∀ item ∈ items, ∃ made, accessor item = some made ∧ dropped made = skipped item) :
    (items.filterMap accessor).dropWhile dropped = (items.dropWhile skipped).filterMap accessor := by
  induction items with
  | nil => rfl
  | cons item rest ih =>
      rcases same item List.mem_cons_self with ⟨made, present, agree⟩
      rw [List.filterMap_cons_some present, List.dropWhile_cons, List.dropWhile_cons, agree]
      split
      · exact ih fun other listed => same other (List.mem_cons_of_mem _ listed)
      · rw [List.filterMap_cons_some present]

namespace Catalog

variable {system : TypeSystem} {type : TypeRef} {access : MemberAccess}

/-- The properties by the common name of indexers that a walk takes and that have the accessor, in order of declaration. -/
def itemProperties (system : TypeSystem) (type : TypeRef) (access : MemberAccess) (accessor : ItemAccessor)
    (isStatic : Bool) : List PropertyDef :=
  (system.definition type).properties.filter fun property =>
    property.name = "Item" && (access.admits property.visibility && property.isStatic == isStatic &&
      (accessor.of? property).isSome)

theorem map_definition_methods (system : TypeSystem) (type : TypeRef) :
    (system.methods type).map (·.definition) = (system.definition type).methods := by
  refine List.ext_getElem? fun position => ?_
  simp [TypeSystem.methods, Function.comp_def]

/-- A walk that does not ask for hidden members offers the supported methods that it admits. -/
theorem map_definition_offered (whole : access ≠ .hiddenOnly) :
    (offered system type access).map (·.definition) =
      (system.definition type).methods.filter fun method =>
        access.admits method.visibility && system.isSupported method := by
  rw [offered, walkedMethods, if_neg whole, List.filter_filter, ← map_definition_methods system type, List.filter_map]
  congr 1
  exact List.filter_congr fun method _ => Bool.and_comm _ _

/-- The accessors of items that a walk offers are those of the properties that it takes. -/
theorem map_definition_filter_offered (declared : (system.definition type).ItemsDeclared)
    (whole : access ≠ .hiddenOnly) (accessor : ItemAccessor) (isStatic : Bool) :
    ((offered system type access).filter (hasKey (accessor.methodName, isStatic))).map (·.definition) =
      (itemProperties system type access accessor isStatic).filterMap accessor.of? := by
  have byName : ((offered system type access).filter (hasKey (accessor.methodName, isStatic))).map (·.definition) =
      ((system.definition type).methods.filter fun method => method.name = accessor.methodName).filter fun method =>
        method.isStatic == isStatic && (access.admits method.visibility && system.isSupported method) := by
    have keyed : ((offered system type access).filter (hasKey (accessor.methodName, isStatic))).map (·.definition) =
        ((offered system type access).map (·.definition)).filter fun method =>
          (method.name, method.isStatic) = (accessor.methodName, isStatic) := by
      rw [List.filter_map]
      rfl
    rw [keyed, map_definition_offered whole, List.filter_filter, List.filter_filter]
    exact List.filter_congr fun method _ => by simp only [Prod.mk.injEq]; grind
  rw [byName, declared.methods accessor, List.filter_filterMap, List.filterMap_filter, itemProperties,
    List.filterMap_filter]
  refine List.filterMap_congr fun property present => ?_
  by_cases isItem : property.name = "Item"
  · cases found : accessor.of? property with
    | none => simp
    | some method =>
        have makes := declared.made accessor property present isItem method found
        simp [isItem, makes.isStatic, makes.visibility, makes.isSupported, Option.filter_some, and_comm]
  · simp [isItem]

/-- A group of item accessors has those of the properties from the first on whose key takes strings. -/
theorem map_definition_ownMethods (declared : (system.definition type).ItemsDeclared) (whole : access ≠ .hiddenOnly)
    (accessor : ItemAccessor) (isStatic : Bool) :
    (ownMethods system type access (accessor.methodName, isStatic)).map (·.definition) =
      ((itemProperties system type access accessor isStatic).dropWhile fun property =>
        !hasStringKey system property).filterMap accessor.of? := by
  rw [← ItemAccessor.dropWhile_filterMap fun method => roleOf system method ≠ .grouped,
    ← map_definition_filter_offered declared whole, List.dropWhile_map]
  · rfl
  · intro property taken
    rcases List.mem_filter.mp taken with ⟨present, wanted⟩
    simp only [Bool.and_eq_true, decide_eq_true_eq] at wanted
    rcases Option.isSome_iff_exists.mp wanted.2.2 with ⟨method, found⟩
    have makes := declared.made accessor property present wanted.1 method found
    have opens := @ItemAccessor.Makes.roleOf_eq_grouped_iff system _ _ _ makes (declared.single property present)
    exact ⟨method, found, by cases keyed : hasStringKey system property <;> simp [opens, keyed]⟩

/-- What comes from the first kept item on is what is kept if no other item comes after a kept one. -/
theorem dropWhile_eq_filter_iff {α : Type} {kept : α → Bool} {items : List α} :
    (items.dropWhile fun item => !kept item) = items.filter kept ↔
      items.Pairwise fun earlier later => kept earlier = true → kept later = true := by
  induction items with
  | nil => simp
  | cons item rest ih =>
      rw [List.pairwise_cons]
      cases keeps : kept item with
      | false => simp [keeps, ih]
      | true =>
          simp only [List.dropWhile_cons, List.filter_cons, keeps, Bool.not_true, Bool.false_eq_true, if_false, if_true,
            List.cons.injEq, true_and, true_implies]
          rw [eq_comm, List.filter_eq_self]
          exact ⟨fun all => ⟨all, List.pairwise_of_forall_mem_list fun _ _ later listed _ => all later listed⟩, And.left⟩

theorem filter_dropWhile {α : Type} (kept : α → Bool) (items : List α) :
    (items.dropWhile fun item => !kept item).filter kept = items.filter kept := by
  induction items with
  | nil => rfl
  | cons item rest ih => cases keeps : kept item <;> simp [keeps, ih]

end Catalog

end ScriptBridge
