import Gleaner.Regex.Basic

/-!
# The named groups of a pattern

The names of a pattern's groups, in the order in which they open in its text, are those of its parts
one after the other.
-/

namespace Gleaner

/-- The name that a group keeps its match under. -/
def GroupKind.name? : GroupKind → Option GroupName
  | .named name => some name
  | .plain | .bundle => none

/-- The names of the groups of a pattern, from left to right. -/
def Regex.groupNames : Regex → List GroupName
  | seq first second | alt first second => first.groupNames ++ second.groupNames
  | optional body | star _ body | plus _ body => body.groupNames
  | group kind body => kind.name?.toList ++ body.groupNames
  | empty | char _ | textStart | textEnd | look _ _ _ => []

namespace Regex

@[simp] theorem groupNames_append (first second : Regex) :
    (first ++ second).groupNames = first.groupNames ++ second.groupNames := rfl

@[simp] theorem groupNames_concat (parts : List Regex) :
    (concat parts).groupNames = parts.flatMap groupNames := by
  induction parts with
  | nil => rfl
  | cons first rest ih =>
    cases rest with
    | nil => simp [concat]
    | cons second rest =>
      calc (concat (first :: second :: rest)).groupNames
          = first.groupNames ++ (concat (second :: rest)).groupNames := rfl
        _ = (first :: second :: rest).flatMap groupNames := by rw [ih, ← List.flatMap_cons]

@[simp] theorem groupNames_literal (text : List Char) : (literal text).groupNames = [] := by
  rw [literal, groupNames_concat, List.flatMap_eq_nil_iff]
  intro regex member
  obtain ⟨c, -, rfl⟩ := List.mem_map.mp member
  rfl

end Regex

end Gleaner
