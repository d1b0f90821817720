import Mathlib.Data.List.Induction
import ScriptBridge.Binding.NamespaceTree

/-!
# Dotted paths

A path written with dots between its names is split into its names again, if none
of them is empty or has a dot in it.
-/

namespace ScriptBridge

namespace Text

/-- A name as it may stand between dots. -/
def IsName (text : String) : Prop := text ≠ "" ∧ '.' ∉ text.toList

instance (text : String) : Decidable (IsName text) := inferInstanceAs (Decidable (_ ∧ _))

theorem splitAt_ne_nil (separator : Char) (characters : List Char) : splitAt separator characters ≠ [] := by
  cases characters with
  | nil => exact List.cons_ne_nil _ _
  | cons character rest =>
      rw [splitAt]
      split
      · exact List.cons_ne_nil _ _
      · split <;> exact List.cons_ne_nil _ _

theorem splitAt_cons {separator : Char} (character : Char) {rest piece : List Char} {pieces : List (List Char)}
    (split : splitAt separator rest = piece :: pieces) :
    splitAt separator (character :: rest) =
      if character = separator then [] :: piece :: pieces else (character :: piece) :: pieces := by
  rw [splitAt, split]

/-- The pieces of two lists with a separator between them are those of the one and those of the other. -/
theorem splitAt_append (separator : Char) (first second : List Char) :
    splitAt separator (first ++ separator :: second) = splitAt separator first ++ splitAt separator second := by
  induction first with
  | nil =>
      rcases List.exists_cons_of_ne_nil (splitAt_ne_nil separator second) with ⟨piece, pieces, split⟩
      rw [List.nil_append, splitAt_cons separator split, if_pos rfl, split]
      rfl
  | cons character rest ih =>
      rcases List.exists_cons_of_ne_nil (splitAt_ne_nil separator rest) with ⟨piece, pieces, split⟩
      rw [split, List.cons_append] at ih
      rw [List.cons_append, splitAt_cons character ih, splitAt_cons character split]
      split <;> rfl

theorem splitAt_of_not_mem {separator : Char} {characters : List Char} (absent : separator ∉ characters) :
    splitAt separator characters = [characters] := by
  induction characters with
  | nil => rfl
  | cons character rest ih =>
      rw [List.mem_cons, not_or] at absent
      rw [splitAt_cons character (ih absent.2), if_neg (Ne.symm absent.1)]

theorem not_mem_of_mem_splitAt {separator : Char} {characters piece : List Char}
    (listed : piece ∈ splitAt separator characters) : separator ∉ piece := by
  induction characters generalizing piece with
  | nil =>
      rcases List.mem_singleton.mp listed with rfl
      exact List.not_mem_nil
  | cons character rest ih =>
      rcases List.exists_cons_of_ne_nil (splitAt_ne_nil separator rest) with ⟨first, pieces, split⟩
      rw [split] at ih
      rw [splitAt_cons character split] at listed
      split at listed
      next =>
        rcases List.mem_cons.mp listed with rfl | later
        · exact List.not_mem_nil
        · exact ih later
      next other =>
        rcases List.mem_cons.mp listed with rfl | later
        · rw [List.mem_cons, not_or]
          exact ⟨Ne.symm other, ih List.mem_cons_self⟩
        · exact ih (List.mem_cons_of_mem _ later)

theorem isName_of_mem_segments {text name : String} (listed : name ∈ segments text) : IsName name := by
  rcases List.mem_map.mp listed with ⟨piece, kept, rfl⟩
  rcases List.mem_filter.mp kept with ⟨present, nonempty⟩
  rw [IsName, String.toList_ofList]
  refine ⟨fun empty => ?_, not_mem_of_mem_splitAt present⟩
  have same := congrArg String.toList empty
  rw [String.toList_ofList] at same
  rw [same] at nonempty
  cases nonempty

theorem segments_append (first second : String) : segments (first ++ "." ++ second) = segments first ++ segments second := by
  rw [segments, segments, segments, ← List.map_append, ← List.filter_append, ← splitAt_append]
  simp

end Text

namespace NamespaceTree

/-- The dotted name of a path. -/
def dotted (path : List String) : String := path.foldl extendPath ""

theorem dotted_concat (path : List String) (name : String) :
    dotted (path ++ [name]) = extendPath (dotted path) name := by
  rw [dotted, List.foldl_append]
  rfl

/-- A name at the end of a dotted path is its last segment. -/
theorem segments_extendPath (path : String) {name : String} (isName : Text.IsName name) :
    Text.segments (extendPath path name) = Text.segments path ++ [name] := by
  have alone : Text.segments name = [name] := by
    have nonempty : name.toList.isEmpty = false := by
      rw [List.isEmpty_eq_false_iff]
      exact fun empty => isName.1 (String.toList_inj.mp empty)
    simp [Text.segments, Text.splitAt_of_not_mem isName.2, nonempty]
  rw [extendPath]
  split
  next empty =>
    rw [String.isEmpty_iff.mp empty, alone]
    rfl
  next =>
    rw [Text.segments_append, alone]

/-- A path is read off its dotted name. -/
theorem segments_dotted {path : List String} (names : ∀ name ∈ path, Text.IsName name) :
    Text.segments (dotted path) = path := by
  induction path using List.reverseRecOn with
  | nil => rfl
  | append_singleton path name ih =>
      rw [dotted_concat, segments_extendPath _ (names name (by simp)),
        ih fun other listed => names other (List.mem_append_left _ listed)]

end NamespaceTree

end ScriptBridge
