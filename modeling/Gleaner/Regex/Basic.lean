import Gleaner.Part
import Gleaner.Regex.CharSet

/-!
# Patterns

A pattern as a tree. Descriptions are turned into such trees, the matcher runs on them, and
`Regex.spell` writes them as text. Text is only ever made from a tree, so a literal can never be
taken for a group, a class or a repetition.
-/

namespace Gleaner

/-- The name of a group whose match is kept. -/
inductive GroupName where
  /-- A part of a block. -/
  | part (p : Part)
  /-- A captured token, by its number. -/
  | slot (index : Nat)
deriving DecidableEq, Repr, Inhabited

/-- The name as it stands in a pattern. -/
def GroupName.text : GroupName → String
  | .part p => p.key
  | .slot index => "g" ++ toString index

/-- What a pair of parentheses is for. -/
inductive GroupKind where
  /-- A group whose match nobody asks for. -/
  | plain
  /-- Parentheses that only hold their content together. -/
  | bundle
  /-- A group whose match is kept under a name. -/
  | named (name : GroupName)
deriving DecidableEq, Repr, Inhabited

/-- Whether a repetition tries to go on first, or to stop first. -/
inductive Greed where
  | greedy
  | lazy
deriving DecidableEq, Repr, Inhabited

/-- The neighbour of a place that an assertion looks at. -/
inductive Side where
  | before
  | after
deriving DecidableEq, Repr, Inhabited

/-- A pattern. -/
inductive Regex where
  | empty
  | char (set : CharSet)
  | textStart
  | textEnd
  /-- The neighbour on one side belongs to the set, or (`wanted = false`) does not or is missing. -/
  | look (side : Side) (wanted : Bool) (set : CharSet)
  | seq (first second : Regex)
  | alt (first second : Regex)
  | optional (body : Regex)
  | star (greed : Greed) (body : Regex)
  | plus (greed : Greed) (body : Regex)
  | group (kind : GroupKind) (body : Regex)
deriving DecidableEq, Repr, Inhabited

namespace Regex

instance : Append Regex := ⟨seq⟩

/-- Some patterns, one after the other. -/
def concat : List Regex → Regex
  | [] => empty
  | [last] => last
  | first :: rest => first ++ concat rest

/-- Exactly the given text. -/
def literal (text : List Char) : Regex :=
  concat (text.map fun c => char (.exactly c))

/-- The greatest number of parentheses that stand open at one place of the spelled pattern. -/
def depth : Regex → Nat
  | empty | char _ | textStart | textEnd => 0
  | look _ _ _ => 1
  | seq first second => max first.depth second.depth
  | alt first second => max first.depth second.depth
  | optional body => body.depth
  | star _ body => body.depth
  | plus _ body => body.depth
  | group _ body => body.depth + 1

end Regex

end Gleaner
